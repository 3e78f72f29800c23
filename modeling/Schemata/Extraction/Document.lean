import Schemata.Extraction.Basic
import Schemata.Json.Basic

/-!
# Extractions as documents

`Extraction.toJson` writes every field, in the order of the definitions and in camel case; what is
not known is null.
-/

namespace Schemata.Extraction

open Json (Value)

/-- A truth value, or null for none. -/
def flag? : Option Bool → Value
  | some b => .bool b
  | none => .null

/-- The document of an attribute. -/
def Attribute.toJson (a : Attribute) : Value :=
  .object
    [("name", .ofText? a.name), ("dataType", .ofText? a.dataType),
     ("isPrimaryKey", .bool a.isPrimaryKey), ("isForeignKey", .bool a.isForeignKey),
     ("isNullable", flag? a.isNullable), ("isUnique", .bool a.isUnique),
     ("defaultValue", .ofText? a.defaultValue), ("description", .ofText? a.description)]

/-- The document of a coordinate. -/
def coordinate : String × Option Binary64 → String × Value
  | (axis, some x) => (axis, .float x)
  | (axis, none) => (axis, .null)

/-- The document of an entity. -/
def Entity.toJson (e : Entity) : Value :=
  let position := match e.position with
    | some axes => .object (axes.map coordinate)
    | none => .null
  .object
    [("name", .ofText? e.name), ("description", .ofText? e.description),
     ("isWeakEntity", .bool e.isWeakEntity), ("isLookupTable", .bool e.isLookupTable),
     ("attributes", .list (e.attributes.map Attribute.toJson)), ("position", position)]

/-- The document of the multiplicities of the sides. -/
def Sides.toJson (s : Sides) : Value :=
  .object [("source", .ofText? s.source), ("target", .ofText? s.target)]

/-- The document of a relationship. -/
def Relationship.toJson (r : Relationship) : Value :=
  let cardinality := match r.cardinality with
    | some sides => sides.toJson
    | none => .null
  .object
    [("name", .ofText? r.name), ("action", .ofText? r.action), ("verb", .ofText? r.verb),
     ("sourceEntity", .ofText? r.sourceEntity), ("targetEntity", .ofText? r.targetEntity),
     ("sourceTable", .ofText? r.sourceTable), ("targetTable", .ofText? r.targetTable),
     ("type", .ofText? r.type), ("isIdentifying", .bool r.isIdentifying),
     ("sourceCardinality", .ofText? r.sourceCardinality),
     ("targetCardinality", .ofText? r.targetCardinality),
     ("sourceParticipation", .ofText? r.sourceParticipation),
     ("targetParticipation", .ofText? r.targetParticipation),
     ("cardinality", cardinality), ("description", .ofText? r.description),
     ("attributes", .list (r.attributes.map Attribute.toJson))]

/-- The document of an extraction. -/
def toJson (e : Extraction) : Value :=
  .object
    [("entities", .list (e.entities.map Entity.toJson)),
     ("relationships", .list (e.relationships.map Relationship.toJson))]

end Schemata.Extraction
