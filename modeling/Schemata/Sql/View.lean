import Schemata.Schema.Key
import Schemata.Sql.Name

/-!
# Views of junction tables

A junction table is shown together with the two tables that it joins. `JunctionView.of?` gives the
view of a junction both of whose sides exist.
-/

namespace Schemata.Sql

/-- One of the tables that a junction joins. -/
structure ViewSide where
  /-- The name that stands for the table. -/
  letter : String
  /-- The table. -/
  table : String
  /-- The column of the table to which the junction refers. -/
  tableColumn : String
  /-- The column of the junction that refers to it. -/
  junctionColumn : String
  /-- The columns shown, each with the name under which it is shown. -/
  columns : List (String × String)
deriving DecidableEq, Repr

/-- A junction table joined with its two sides. -/
structure JunctionView where
  /-- The junction table. -/
  junction : String
  /-- The columns of the junction that are shown. -/
  columns : List String
  /-- The side of the source. -/
  source : ViewSide
  /-- The side of the target. -/
  target : ViewSide
deriving DecidableEq, Repr

/-- The name of the view of a junction. -/
def viewName (junction : String) : String :=
  "v_" ++ junction

/-- The tables to which the key columns of a junction refer, as far as they exist. -/
def referredSides (tables : List Table) (junction : Table) : List (Column × Reference × Table) :=
  junction.keyColumns.filterMap fun c => do
    let reference ← c.references
    let table ← tables.find? (·.name == reference.table)
    return (c, reference, table)

/-- Whether a column of a side is shown: no key, no reference, no moment of the row. -/
def isShown (c : Column) : Bool :=
  !c.isPrimaryKey && !c.isForeignKey && !stampNames.contains c.name

/-- A side, its columns shown behind a name. -/
def ViewSide.of (letter label : String) (side : Column × Reference × Table) : ViewSide :=
  let (c, reference, table) := side
  { letter
    table := table.name
    tableColumn := reference.column
    junctionColumn := c.name
    columns := (table.columns.filter isShown).map fun shown =>
      (shown.name, label ++ "_" ++ shown.name) }

namespace JunctionView

/-- The view of a junction, if it refers to exactly two tables that exist. -/
def of? (tables : List Table) (junction : Table) : Option JunctionView :=
  match referredSides tables junction with
  | [source, target] =>
    let sourceName := source.2.2.name
    let targetName := target.2.2.name
    some {
      junction := junction.name
      columns := (junction.columns.map (·.name)).filter fun name => !stampNames.contains name
      source := .of "s" sourceName source
      target := .of "t" (if sourceName = targetName then "related_" ++ targetName else targetName)
        target }
  | _ => none

/-- The columns of a side in the list of what is shown. -/
def shownColumns (d : Dialect) (side : ViewSide) : List String :=
  side.columns.map fun (column, shown) =>
    s!"{side.letter}.{d.quoteName column} AS {d.quoteName shown}"

/-- The clause that joins a side. -/
def joinClause (d : Dialect) (side : ViewSide) : String :=
  s!"JOIN {d.quoteName side.table} {side.letter} ON "
    ++ s!"{side.letter}.{d.quoteName side.tableColumn} = j.{d.quoteName side.junctionColumn}"

/-- The query of the view. -/
def render (d : Dialect) (v : JunctionView) : String :=
  let shown := v.columns.map (fun name => "j." ++ d.quoteName name)
    ++ shownColumns d v.source ++ shownColumns d v.target
  "SELECT " ++ String.intercalate ", " shown ++ "\nFROM " ++ d.quoteName v.junction ++ " j\n"
    ++ joinClause d v.source ++ "\n" ++ joinClause d v.target

end JunctionView

end Schemata.Sql
