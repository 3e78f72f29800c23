import Schemata.Reading.Scalar
import Schemata.Schema.Basic

/-!
# Reading schemas

`Schema.read` takes a schema from a document. Names of tables, columns and relationships have to be
there; all other fields may be left out and then take the values that the definitions give them. A
schema without dates was made and changed now.
-/

namespace Schemata

/-- Reads a reference. -/
def Reference.read : Json.Value → Reading Reference :=
  readObject fun members => Reference.mk
    <$> members.field (.single "table") readText
    <*> members.field (.single "column") readText
    <*> members.fieldD ⟨"onDelete", "on_delete"⟩ "CASCADE" readText
    <*> members.fieldD ⟨"onUpdate", "on_update"⟩ "CASCADE" readText

/-- Reads a column. -/
def Column.read (origin : Origin) : Json.Value → Reading Column :=
  readObject fun members => Column.mk
    <$> members.field (.single "name") readText
    <*> members.fieldD ⟨"dataType", "data_type"⟩ defaultType readText
    <*> members.fieldD ⟨"isPrimaryKey", "is_primary_key"⟩ false (readFlag origin)
    <*> members.fieldD ⟨"isForeignKey", "is_foreign_key"⟩ false (readFlag origin)
    <*> members.fieldD ⟨"isNullable", "is_nullable"⟩ true (readFlag origin)
    <*> members.fieldD ⟨"isUnique", "is_unique"⟩ false (readFlag origin)
    <*> members.fieldD ⟨"defaultValue", "default_value"⟩ none (readNullable readText)
    <*> members.fieldD (.single "references") none (readNullable Reference.read)
    <*> members.fieldD (.single "description") "" readText

/-- Reads a place. -/
def Position.read (origin : Origin) : Json.Value → Reading Position :=
  readObject fun members => Position.mk
    <$> members.fieldD (.single "x") .zero (readNumber origin)
    <*> members.fieldD (.single "y") .zero (readNumber origin)
    <*> members.fieldD ⟨"isDraggable", "is_draggable"⟩ true (readFlag origin)

/-- Reads a table. -/
def Table.read (origin : Origin) : Json.Value → Reading Table :=
  readObject fun members => Table.mk
    <$> members.field (.single "name") readText
    <*> members.fieldD (.single "columns") [] (readList (Column.read origin))
    <*> members.fieldD (.single "description") "" readText
    <*> members.fieldD ⟨"isWeakEntity", "is_weak_entity"⟩ false (readFlag origin)
    <*> members.fieldD ⟨"isLookupTable", "is_lookup_table"⟩ false (readFlag origin)
    <*> members.fieldD ⟨"isJunctionTable", "is_junction_table"⟩ false (readFlag origin)
    <*> members.fieldD (.single "position") none (readNullable (Position.read origin))

/-- Reads multiplicities. -/
def Multiplicities.read : Json.Value → Reading Multiplicities :=
  readObject fun members => Multiplicities.mk
    <$> members.fieldD (.single "source") none (readNullable (readChoice Multiplicity.words))
    <*> members.fieldD (.single "target") none (readNullable (readChoice Multiplicity.words))

/-- Reads a relationship. -/
def Relationship.read (origin : Origin) : Json.Value → Reading Relationship :=
  readObject fun members => Relationship.mk
    <$> members.field (.single "name") readText
    <*> members.field ⟨"sourceTable", "source_table"⟩ readText
    <*> members.field ⟨"targetTable", "target_table"⟩ readText
    <*> members.field ⟨"sourceEntity", "source_entity"⟩ readText
    <*> members.field ⟨"targetEntity", "target_entity"⟩ readText
    <*> members.fieldD (.single "type") .oneToMany (readChoice RelationshipKind.words)
    <*> members.fieldD ⟨"isIdentifying", "is_identifying"⟩ false (readFlag origin)
    <*> members.fieldD ⟨"sourceCardinality", "source_cardinality"⟩ none (readNullable readText)
    <*> members.fieldD ⟨"targetCardinality", "target_cardinality"⟩ none (readNullable readText)
    <*> members.fieldD ⟨"sourceParticipation", "source_participation"⟩ .partly
      (readChoice Participation.words)
    <*> members.fieldD ⟨"targetParticipation", "target_participation"⟩ .partly
      (readChoice Participation.words)
    <*> members.fieldD (.single "cardinality") none (readNullable Multiplicities.read)
    <*> members.fieldD (.single "attributes") [] (readList (Column.read origin))
    <*> members.fieldD (.single "description") "" readText

/-- Reads a schema, `now` being the moment of reading. -/
def Schema.read (origin : Origin) (now : Moment) : Json.Value → Reading Schema :=
  readObject fun members => Schema.mk
    <$> members.fieldD (.single "name") "New Schema" readText
    <*> members.fieldD (.single "description") "" readText
    <*> members.fieldD (.single "tables") [] (readList (Table.read origin))
    <*> members.fieldD (.single "relationships") [] (readList (Relationship.read origin))
    <*> members.fieldD (.single "version") 1 readInteger
    <*> members.fieldD ⟨"createdAt", "created_at"⟩ now (readMoment origin)
    <*> members.fieldD ⟨"updatedAt", "updated_at"⟩ now (readMoment origin)

end Schemata
