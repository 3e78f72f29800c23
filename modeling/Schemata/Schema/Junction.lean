import Schemata.Schema.Check
import Schemata.Schema.Key

/-!
# Junction tables

A many-to-many relationship becomes a table of its own, the junction, with a key column for each
side, and two one-to-many relationships from the sides to the junction.
`Schema.expandManyToMany` does so for all such relationships of a schema whose junction is not there
yet.
-/

namespace Schemata

/-- The name of the junction of two tables. -/
def junctionName (source target : String) : String :=
  source ++ "_" ++ target

/-- A key column of a junction that refers to a side. -/
def junctionKey (name : String) (side : Table) : Column :=
  { side.foreignKeyColumn name false with isPrimaryKey := true }

/-- The names of the two key columns of a junction. -/
def junctionKeyNames (source target : Table) : String × String :=
  let name (side : Table) : String := side.name ++ "_" ++ side.referencedKey.name
  if name source = name target then (name source, "related_" ++ name target)
  else (name source, name target)

/-- The column of a junction for an attribute of its relationship. -/
def junctionColumn (a : Column) : Column where
  name := a.name
  dataType := if a.dataType.isEmpty then defaultType else a.dataType
  isNullable := a.isNullable
  isUnique := a.isUnique
  defaultValue := a.defaultValue
  description := if a.description.isEmpty then a.name ++ " attribute" else a.description

/-- The attributes whose names are not taken, of several of one name the first. -/
def untaken (taken : List String) : List Column → List Column
  | [] => []
  | a :: rest =>
    if a.name ∈ taken then untaken taken rest else a :: untaken (a.name :: taken) rest

/-- The junction of two tables for a relationship. -/
def junctionTable (r : Relationship) (source target : Table) : Table :=
  let (sourceKey, targetKey) := junctionKeyNames source target
  let attributes := untaken ([sourceKey, targetKey] ++ stampNames) r.attributes
  { name := junctionName source.name target.name
    columns := [junctionKey sourceKey source, junctionKey targetKey target]
      ++ attributes.map junctionColumn ++ stampNames.map Column.stamp
    description :=
      s!"Junction table for many-to-many relationship between {source.name} and {target.name}"
    isJunctionTable := true }

/-- The relationship from a side to the junction. -/
def junctionSide (r : Relationship) (side : Side) (owner junction : Table) : Relationship where
  name := r.name ++ "_" ++ side.word
  sourceTable := owner.name
  sourceEntity := match side with
    | .source => r.sourceEntity
    | .target => r.targetEntity
  targetTable := junction.name
  targetEntity := junction.name
  kind := .oneToMany
  isIdentifying := true
  sourceCardinality := some "1..1"
  targetCardinality := some "0..*"
  sourceParticipation := .partly
  targetParticipation := .total
  description := s!"One-to-many relationship from {owner.name} to junction table"

/-- The relationships from both sides to the junction. -/
def junctionSides (r : Relationship) (source target junction : Table) : List Relationship :=
  [junctionSide r .source source junction, junctionSide r .target target junction]

/-- The tables after the column to which references to `t` go has been made unique, where it is one
of several key columns. -/
def makeReferenceable (tables : List Table) (t : Table) : List Table :=
  let key := t.referencedKey
  if t.keyColumns.length < 2 || key.isForeignKey || key.isUnique then tables
  else
    let columns := (t.mapColumns key.name fun c => { c with isUnique := true }).columns
    tables.map fun u => if u.name == t.name then { u with columns } else u

/-- The table of a name, as the side of a relationship that is to become a table. -/
def requireSide (tables : List Table) (r : Relationship) (name : String) :
    Except Violation Table :=
  match tables.find? (·.name == name) with
  | some t => .ok t
  | none => .error ⟨[.unjoinable r.name name]⟩

/-- The tables with the junction for a relationship, and the relationships in its place. A
relationship of another kind, or one whose junction is there, stays as it is. -/
def expandRelationship (tables : List Table) (r : Relationship) :
    Except Violation (List Table × List Relationship) :=
  if r.kind = .manyToMany then do
    let source ← requireSide tables r r.sourceTable
    let target ← requireSide tables r r.targetTable
    if tables.any (·.name == junctionName source.name target.name) then return (tables, [r])
    else
      let junction := junctionTable r source target
      let tables := makeReferenceable (makeReferenceable tables source) target
      return (tables ++ [junction], junctionSides r source target junction)
  else return (tables, [r])

/-- The tables with the junctions for a list of relationships, and the relationships in their
place. -/
def expandRelationships (tables : List Table) :
    List Relationship → Except Violation (List Table × List Relationship)
  | [] => .ok (tables, [])
  | r :: rs => do
    let (tables, first) ← expandRelationship tables r
    let (tables, rest) ← expandRelationships tables rs
    return (tables, first ++ rest)

/-- The schema with a junction in the place of each many-to-many relationship. -/
def Schema.expandManyToMany (s : Schema) : Except Violation Schema := do
  let (tables, relationships) ← expandRelationships s.tables s.relationships
  return { s with tables, relationships }

end Schemata
