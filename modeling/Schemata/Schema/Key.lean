import Schemata.Naming
import Schemata.Schema.Basic

/-!
# Keys of tables

Every operation here takes a table and gives a table with a change to its key or to its references:
`withPrimaryKey` makes sure that there is a key, `withForeignKey` lets a table refer to another,
`withIdentifyingKey` makes the reference part of the key, and `withContiguousKey` moves the key to
the front.

References go to one column, the `referencedKey` of the other table, also where its key consists of
several columns.
-/

namespace Schemata

/-- The name of the key column of a table that brings none. -/
def defaultKeyName : String := "id"

/-- The key column of a table that brings none. -/
def Column.defaultKey : Column where
  name := defaultKeyName
  dataType := "INTEGER"
  isPrimaryKey := true
  isNullable := false
  isUnique := true
  description := "Primary key"

/-- The name of the column that holds the moment at which a row was made. -/
def createdAtName : String := "created_at"

/-- The name of the column that holds the moment at which a row was last changed. -/
def updatedAtName : String := "updated_at"

/-- The columns that a row's moments are kept in. -/
def stampNames : List String := [createdAtName, updatedAtName]

/-- A column that holds a moment of a row. -/
def Column.stamp (name : String) : Column where
  name := name
  dataType := "TIMESTAMP"
  isNullable := false
  defaultValue := some "CURRENT_TIMESTAMP"
  description := if name = createdAtName then "Creation timestamp" else "Last update timestamp"

/-- The columns of a table about whose columns nothing is known. -/
def Column.defaults : List Column :=
  [.defaultKey, { name := "name", isNullable := false, description := "Name field" },
   .stamp createdAtName, .stamp updatedAtName]

/-- The name of the column that completes the key of a table without a key of its own. -/
def partialKeyName : String := "partial_id"

/-- The column that completes the key of a table without a key of its own. -/
def Column.partialKey : Column where
  name := partialKeyName
  dataType := "INTEGER"
  isPrimaryKey := true
  isNullable := false
  description := "Partial key for weak entity (forms composite primary key with owner reference)"

namespace Table

/-- The key column to which references to the table go: of several ones, the first that is not
itself a reference. -/
def referencedKey (t : Table) : Column :=
  match t.keyColumns with
  | [] => .defaultKey
  | [key] => key
  | key :: keys => ((key :: keys).find? (!·.isForeignKey)).getD key

/-- The reference to the key of a table. -/
def reference (t : Table) : Reference where
  table := t.name
  column := t.referencedKey.name

/-- A foreign key to the table. -/
def foreignKeyColumn (t : Table) (name : String) (nullable : Bool) : Column where
  name := name
  dataType := t.referencedKey.dataType
  isForeignKey := true
  isNullable := nullable
  references := some t.reference
  description := "Foreign key reference to " ++ t.name

/-! ## A key of its own -/

/-- The way in which a table came by its key. -/
inductive KeyChange where
  /-- A column was added. -/
  | added
  /-- A column of the right name was made the key. -/
  | promoted
deriving DecidableEq, Repr

/-- The column as the only key column. -/
def promote (c : Column) : Column :=
  { c with isPrimaryKey := true, isNullable := false, isUnique := true }

/-- The table with a primary key, and what was done for it. -/
def withPrimaryKey (t : Table) : Table × Option KeyChange :=
  if t.keyColumns.isEmpty then
    match t.column? defaultKeyName with
    | some c => (t.mapColumns defaultKeyName fun _ => promote c, some .promoted)
    | none => ({ t with columns := .defaultKey :: t.columns }, some .added)
  else (t, none)

/-- The table with a column for a moment, added at the end if it is not there. -/
def withStamp (t : Table) (name : String) : Table :=
  if t.hasColumn name then t else { t with columns := t.columns ++ [.stamp name] }

/-- The table with columns for the moments of its rows. -/
def withStamps (t : Table) : Table :=
  (t.withStamp createdAtName).withStamp updatedAtName

/-! ## References -/

/-- The table with a foreign key to another. A plain column of the right name becomes the foreign
key; one that has a reference already is left alone. -/
def withForeignKey (t other : Table) : Table :=
  let name := foreignKeyName other.name
  match t.column? name with
  | none => { t with columns := t.columns ++ [other.foreignKeyColumn name true] }
  | some c =>
    if c.foreignKey?.isSome then t
    else t.mapColumns name fun _ =>
      { c with
        isForeignKey := true
        dataType := other.referencedKey.dataType
        references := some other.reference }

/-- What the foreign key to the owner of a table means. -/
def ownerDescription (owner : String) : String :=
  s!"Foreign key reference to {owner} (part of composite primary key for weak entity)"

/-- The column as a key column that refers to the owner of its table. -/
def ownerKey (owner : Table) (c : Column) : Column :=
  { c with
    isPrimaryKey := true
    isForeignKey := true
    isNullable := false
    references := some (c.references.getD owner.reference)
    description := if c.description.isEmpty then ownerDescription owner.name else c.description }

/-- The columns of a table with a key column that refers to the owner of the table: the column of
the right name, or a new one in front. -/
def columnsWithOwner (columns : List Column) (owner : Table) : List Column :=
  let name := foreignKeyName owner.name
  match columns.find? (·.name == name) with
  | some c => columns.map fun d => if d.name == name then ownerKey owner c else d
  | none =>
    { owner.foreignKeyColumn name false with
      isPrimaryKey := true
      description := ownerDescription owner.name } :: columns

/-- Whether a column belongs to the key without being a reference. -/
def isOwnKey (c : Column) : Bool :=
  c.isPrimaryKey && !c.isForeignKey

/-- Puts a column behind the first one of a name. -/
def insertAfter (name : String) (column : Column) : List Column → List Column
  | [] => []
  | c :: cs => if c.name == name then c :: column :: cs else c :: insertAfter name column cs

/-- The table as one whose rows are identified through an owner, and whether a column had to be
added that tells the rows of one owner apart. -/
def withIdentifyingKey (t owner : Table) : Table × Bool :=
  let columns := columnsWithOwner t.columns owner
  if columns.any isOwnKey then ({ t with columns, isWeakEntity := true }, false)
  else
    let columns := insertAfter (foreignKeyName owner.name) .partialKey columns
    ({ t with columns, isWeakEntity := true }, true)

/-! ## The order of columns -/

/-- The table with its key columns in front. Key columns are never open, and the columns of a key
of several are unique only together. -/
def withContiguousKey (t : Table) : Table :=
  let keys := t.keyColumns
  let settle (c : Column) : Column :=
    if 1 < keys.length then { c with isUnique := false, isNullable := false }
    else { c with isNullable := false }
  { t with columns := keys.map settle ++ t.columns.filter (!·.isPrimaryKey) }

end Table

end Schemata
