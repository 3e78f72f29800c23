import Schemata.Json.Basic
import Schemata.Schema.Basic

/-!
# Schemas as documents

`Schema.toJson` writes every field, in the order of the definitions and in camel case; what is not
known is null.
-/

namespace Schemata

open Json (Value)

/-- A document, or null for none. -/
def Json.Value.ofOption {α : Type} (toJson : α → Value) : Option α → Value
  | some a => toJson a
  | none => .null

/-- The document of a reference. -/
def Reference.toJson (r : Reference) : Value :=
  .object
    [("table", .text r.table), ("column", .text r.column), ("onDelete", .text r.onDelete),
     ("onUpdate", .text r.onUpdate)]

/-- The document of a column. -/
def Column.toJson (c : Column) : Value :=
  .object
    [("name", .text c.name), ("dataType", .text c.dataType),
     ("isPrimaryKey", .bool c.isPrimaryKey), ("isForeignKey", .bool c.isForeignKey),
     ("isNullable", .bool c.isNullable), ("isUnique", .bool c.isUnique),
     ("defaultValue", .ofText? c.defaultValue),
     ("references", .ofOption Reference.toJson c.references),
     ("description", .text c.description)]

/-- The document of a place. -/
def Position.toJson (p : Position) : Value :=
  .object [("x", .float p.x), ("y", .float p.y), ("isDraggable", .bool p.isDraggable)]

/-- The document of a table. -/
def Table.toJson (t : Table) : Value :=
  .object
    [("name", .text t.name), ("columns", .list (t.columns.map Column.toJson)),
     ("description", .text t.description), ("isWeakEntity", .bool t.isWeakEntity),
     ("isLookupTable", .bool t.isLookupTable), ("isJunctionTable", .bool t.isJunctionTable),
     ("position", .ofOption Position.toJson t.position)]

/-- The document of a multiplicity. -/
def Multiplicity.toJson (m : Multiplicity) : Value :=
  .text m.word

/-- The document of multiplicities. -/
def Multiplicities.toJson (m : Multiplicities) : Value :=
  .object
    [("source", .ofOption Multiplicity.toJson m.source),
     ("target", .ofOption Multiplicity.toJson m.target)]

/-- The document of a relationship. -/
def Relationship.toJson (r : Relationship) : Value :=
  .object
    [("name", .text r.name), ("sourceTable", .text r.sourceTable),
     ("targetTable", .text r.targetTable), ("sourceEntity", .text r.sourceEntity),
     ("targetEntity", .text r.targetEntity), ("type", .text r.kind.word),
     ("isIdentifying", .bool r.isIdentifying),
     ("sourceCardinality", .ofText? r.sourceCardinality),
     ("targetCardinality", .ofText? r.targetCardinality),
     ("sourceParticipation", .text r.sourceParticipation.word),
     ("targetParticipation", .text r.targetParticipation.word),
     ("cardinality", .ofOption Multiplicities.toJson r.cardinality),
     ("attributes", .list (r.attributes.map Column.toJson)), ("description", .text r.description)]

/-- The document of a schema. -/
def Schema.toJson (s : Schema) : Value :=
  .object
    [("name", .text s.name), ("description", .text s.description),
     ("tables", .list (s.tables.map Table.toJson)),
     ("relationships", .list (s.relationships.map Relationship.toJson)),
     ("version", .integer s.version), ("createdAt", .text s.createdAt.document),
     ("updatedAt", .text s.updatedAt.document)]

end Schemata
