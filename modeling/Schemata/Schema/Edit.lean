import Schemata.Schema.Basic

/-!
# Editing schemas

Tables and relationships are added to a schema and tables are dropped from it without any check;
`Schema.issues` tells what is amiss afterwards.
-/

namespace Schemata.Schema

/-- The schema with a further table. -/
def addTable (s : Schema) (t : Table) : Schema :=
  { s with tables := s.tables ++ [t] }

/-- The schema without the tables of a name. -/
def dropTable (s : Schema) (name : String) : Schema :=
  { s with tables := s.tables.filter (·.name != name) }

/-- The schema with a further relationship. -/
def addRelationship (s : Schema) (r : Relationship) : Schema :=
  { s with relationships := s.relationships ++ [r] }

@[simp] theorem tableNames_addTable (s : Schema) (t : Table) :
    (s.addTable t).tableNames = s.tableNames ++ [t.name] := by
  simp [addTable, tableNames]

theorem notMem_tableNames_dropTable (s : Schema) (name : String) :
    name ∉ (s.dropTable name).tableNames := by
  simp [dropTable, tableNames]

end Schemata.Schema
