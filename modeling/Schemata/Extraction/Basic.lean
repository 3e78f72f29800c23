import Schemata.Decimal.Binary64

/-!
# Extractions

An `Extraction` lists the entities and relationships that were found in a description. It is loose:
names may be missing, types unknown, and relationships may speak of entities that are not there.
The normal form of an extraction is a schema (`Schemata.Normalize`).
-/

namespace Schemata

namespace Extraction

/-- An attribute of an entity or of a relationship. -/
structure Attribute where
  /-- The label. -/
  name : Option String := none
  /-- The type, as text. -/
  dataType : Option String := none
  /-- Whether the attribute identifies its entity. -/
  isPrimaryKey : Bool := false
  /-- Whether the attribute refers to another entity. -/
  isForeignKey : Bool := false
  /-- Whether the attribute may be left open, if it is known. -/
  isNullable : Option Bool := none
  /-- Whether no two values agree. -/
  isUnique : Bool := false
  /-- The value taken where none is given. -/
  defaultValue : Option String := none
  /-- What the attribute means. -/
  description : Option String := none
deriving DecidableEq, Repr

/-- An entity with its attributes. -/
structure Entity where
  /-- The label. -/
  name : Option String := none
  /-- What the entity is. -/
  description : Option String := none
  /-- Whether the entity is identified through another one. -/
  isWeakEntity : Bool := false
  /-- Whether the entity is a fixed set of values. -/
  isLookupTable : Bool := false
  /-- The attributes, in order. -/
  attributes : List Attribute := []
  /-- Coordinates by the name of their axis, if a place is given. -/
  position : Option (List (String × Option Binary64)) := none
deriving DecidableEq, Repr

/-- How often the two sides of a relationship take part, as text. -/
structure Sides where
  /-- The side of the source. -/
  source : Option String := none
  /-- The side of the target. -/
  target : Option String := none
deriving DecidableEq, Repr

/-- A relationship between two entities. -/
structure Relationship where
  /-- The label. -/
  name : Option String := none
  /-- A label used where there is no name. -/
  action : Option String := none
  /-- A label used where there is neither name nor action. -/
  verb : Option String := none
  /-- The label of the source. -/
  sourceEntity : Option String := none
  /-- The label of the target. -/
  targetEntity : Option String := none
  /-- The label of the source, where `sourceEntity` says nothing. -/
  sourceTable : Option String := none
  /-- The label of the target, where `targetEntity` says nothing. -/
  targetTable : Option String := none
  /-- The kind of relationship, as text. -/
  type : Option String := none
  /-- Whether the source identifies the target. -/
  isIdentifying : Bool := false
  /-- The cardinality of the source, as text. -/
  sourceCardinality : Option String := none
  /-- The cardinality of the target, as text. -/
  targetCardinality : Option String := none
  /-- The participation of the source, as text. -/
  sourceParticipation : Option String := none
  /-- The participation of the target, as text. -/
  targetParticipation : Option String := none
  /-- Multiplicities that stand above those of the kind. -/
  cardinality : Option Sides := none
  /-- What the relationship means. -/
  description : Option String := none
  /-- The attributes of the relationship itself. -/
  attributes : List Attribute := []
deriving DecidableEq, Repr

end Extraction

/-- What was found in a description. -/
structure Extraction where
  /-- The entities, in order. -/
  entities : List Extraction.Entity := []
  /-- The relationships, in order. -/
  relationships : List Extraction.Relationship := []
deriving DecidableEq, Repr

end Schemata
