import Schemata.Normalize.Attribute
import Schemata.Normalize.Diagnostic
import Schemata.Schema.Lookup

/-!
# Tables for entities

`Normalize.buildTables` gives each entity a table of a name of its own, with at least one key column
and the columns that hold the moments of a row. `Normalize.resolveDeclared` then looks for the
tables to which the attributes that were declared references refer; their names tell.
-/

namespace Schemata.Normalize

open Extraction (given?)

/-- The column for the attribute at an index, appended to the columns before it unless its name is
taken. -/
def addColumn (table : String) (columns : List Column) (item : Extraction.Attribute × Nat) :
    Noted (List Column) := do
  let column := item.1.column
  Noted.noteIf (column.name = unnamedColumn) (.unnamedColumn table item.2)
  if columns.any (·.name == column.name) then
    Noted.note (.droppedColumn table column.name)
    return columns
  else return columns ++ [column]

/-- The columns for the attributes of an entity; of several of one name the first counts. -/
def columnsFor (table : String) (attributes : List Extraction.Attribute) : Noted (List Column) :=
  Noted.fold (addColumn table) [] attributes.zipIdx

/-- The number of tables side by side on a drawing. -/
def gridWidth : Nat := 3

/-- The place of the table at an index on a drawing: on a grid, unless the entity gives
coordinates. -/
def placeAt (position : Option (List (String × Option Binary64))) (index : Nat) : Position :=
  let coordinate (axis : String) (otherwise : Nat) : Binary64 :=
    (((position.getD []).lookup axis).bind id).getD (.ofInt otherwise)
  { x := coordinate "x" (100 + index % gridWidth * 350)
    y := coordinate "y" (100 + index / gridWidth * 250) }

/-- What is told of a table that had to be given a key. -/
def noteKeyChange (table : String) : Option Table.KeyChange → Noted Unit
  | some .added => Noted.note (.keyAdded table)
  | some .promoted => Noted.note (.keyPromoted table)
  | none => pure ()

/-- The table for the entity at an index, `taken` being the names of the tables before it. -/
def buildTable (taken : List String) (entity : Extraction.Entity) (index : Nat) : Noted Table := do
  let wanted := tableName entity.name
  Noted.noteIf (wanted = unnamedTable) (.unnamedTable index)
  let name := uniqueName wanted taken
  Noted.noteIf (name ≠ wanted) (.renamedTable name wanted)
  let columns ←
    if entity.attributes.isEmpty then do
      Noted.note (.defaultColumns name)
      pure Column.defaults
    else columnsFor name entity.attributes
  let described := (given? entity.description).getD
    ("Table for " ++ (given? entity.name).getD name)
  let table : Table :=
    { name, columns, description := described
      isWeakEntity := entity.isWeakEntity, isLookupTable := entity.isLookupTable
      position := some (placeAt entity.position index) }
  let (keyed, change) := table.withPrimaryKey
  noteKeyChange name change
  return keyed.withStamps

/-- The tables for entities, in order. -/
def buildTables (entities : List Extraction.Entity) : Noted (List Table) :=
  Noted.fold
    (fun tables item => do
      let table ← buildTable (tables.map (·.name)) item.1 item.2
      return tables ++ [table])
    [] entities.zipIdx

/-! ## Declared references -/

/-- The table to which a column refers by its name. -/
def tableForColumn? (tables : List Table) (column : String) : Option Table :=
  tables.find? fun t => t.name ++ "_id" == column

/-- The column with its reference, if it was declared one; without a table to refer to it is a plain
column. -/
def resolveColumn (tables : List Table) (table : String) (c : Column) : Noted Column :=
  if c.isForeignKey && c.references.isNone then
    match tableForColumn? tables c.name with
    | some target => return { c with references := some target.reference }
    | none => do
      Noted.note (.unresolvedColumn table c.name)
      return { c with isForeignKey := false }
  else return c

/-- The tables, every column that was declared a reference being one or being none. -/
def resolveDeclared (tables : List Table) : Noted (List Table) :=
  Noted.each
    (fun t => do
      let columns ← Noted.each (resolveColumn tables t.name) t.columns
      return { t with columns })
    tables

end Schemata.Normalize
