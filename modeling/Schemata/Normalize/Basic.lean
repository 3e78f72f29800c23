import Schemata.Extraction.Reader
import Schemata.Normalize.Entity
import Schemata.Normalize.Relationship
import Schemata.Notice

/-!
# The schema of an extraction

`Extraction.normalize` makes a schema out of an extraction. It never fails: what is missing is
filled in, what cannot be used is left out, and every such decision is told.

The tables are built first, one for each entity. Then the relationships are placed between them, and
the changes to keys that follow from weak entities are made when all references are there.
-/

namespace Schemata

/-- The name of a schema that is given none. -/
def defaultSchemaName : String := "New Schema"

/-- What is said about a schema apart from its extraction. -/
structure Heading where
  /-- The name; the default one, if it is empty. -/
  name : String := defaultSchemaName
  /-- What the schema describes. -/
  description : String := ""
deriving DecidableEq, Repr

/-- A schema and the decisions on the way to it. -/
structure Normalization where
  /-- The schema. -/
  schema : Schema
  /-- The decisions, in order. -/
  diagnostics : List Diagnostic

namespace Normalize

/-- The tables and relationships for an extraction. -/
def tablesAndRelationships (small : Int) (e : Extraction) :
    Noted (List Table × List Relationship) := do
  let built ← buildTables e.entities
  let resolved ← resolveDeclared built
  let (placed, relationships) ← placeAll resolved e.relationships
  let identified ← identifyAll placed relationships
  let retargeted ← retarget (identified.map (·.withContiguousKey))
  let tables ← detectLookups small retargeted
  return (tables, relationships)

end Normalize

/-- The schema for an extraction, made at the moment `now`; tables with at most `small` columns of
their own count as small. -/
def Extraction.normalize (e : Extraction) (heading : Heading) (small : Int) (now : Moment) :
    Normalization :=
  let result := Normalize.tablesAndRelationships small e
  let schema : Schema :=
    { name := if heading.name.isEmpty then defaultSchemaName else heading.name
      description := heading.description
      tables := result.value.1
      relationships := result.value.2
      createdAt := now
      updatedAt := now }
  ⟨schema, result.notes⟩

namespace Normalization

/-- The diagnostics that are warnings. -/
def warnings (n : Normalization) : List Diagnostic :=
  n.diagnostics.filter (·.isWarning)

/-- What is told of the warnings. -/
def notices (n : Normalization) : List Notice :=
  n.warnings.map fun d => .warning d.message

end Normalization

end Schemata
