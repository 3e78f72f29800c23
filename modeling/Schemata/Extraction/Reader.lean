import Schemata.Extraction.Basic
import Schemata.Reading.Scalar

/-!
# Reading extractions

`Extraction.read` takes an extraction from a document. It asks for as little as possible: every
field may be left out, null stands for a field left out, any scalar may stand for a text, and nulls
inside lists are passed over. A place that is no object, and multiplicities that are none, count as
not given. Numbers are taken as if handed over by a caller, wherever the document comes from.
-/

namespace Schemata.Extraction

/-- Reads a truth value, null being false. -/
def readSwitch (value : Json.Value) : Reading Bool :=
  (·.getD false) <$> readNullable (readFlag .caller) value

/-- Reads a text that may be null, from any scalar. -/
def readLabel : Json.Value → Reading (Option String) :=
  readNullable readScalarText

/-- Reads a list whose nulls do not count; null is the empty list. -/
def readItems {α : Type} (read : Json.Value → Reading α) : Json.Value → Reading (List α)
  | .null => .read []
  | .list items => readList read (.list (items.filter fun item => !item.isNull))
  | _ => .fault .notAList

/-- Reads an attribute. -/
def Attribute.read : Json.Value → Reading Attribute :=
  readObject fun members => Attribute.mk
    <$> members.fieldD (.single "name") none readLabel
    <*> members.fieldD ⟨"dataType", "data_type"⟩ none readLabel
    <*> members.fieldD ⟨"isPrimaryKey", "is_primary_key"⟩ false readSwitch
    <*> members.fieldD ⟨"isForeignKey", "is_foreign_key"⟩ false readSwitch
    <*> members.fieldD ⟨"isNullable", "is_nullable"⟩ none (readNullable (readFlag .caller))
    <*> members.fieldD ⟨"isUnique", "is_unique"⟩ false readSwitch
    <*> members.fieldD ⟨"defaultValue", "default_value"⟩ none readLabel
    <*> members.fieldD (.single "description") none readLabel

/-- Reads the coordinates of a place. -/
def readCoordinates : Json.Value → Reading (Option (List (String × Option Binary64)))
  | .object members => some <$> Reading.members (readNullable (readNumber .caller)) members
  | _ => .read none

/-- Reads an entity. -/
def Entity.read : Json.Value → Reading Entity :=
  readObject fun members => Entity.mk
    <$> members.fieldD (.single "name") none readLabel
    <*> members.fieldD (.single "description") none readLabel
    <*> members.fieldD ⟨"isWeakEntity", "is_weak_entity"⟩ false readSwitch
    <*> members.fieldD ⟨"isLookupTable", "is_lookup_table"⟩ false readSwitch
    <*> members.fieldD (.single "attributes") [] (readItems Attribute.read)
    <*> members.fieldD (.single "position") none readCoordinates

/-- Reads the multiplicities of the sides. -/
def Sides.read (members : Json.Members) : Reading Sides :=
  Sides.mk
    <$> members.fieldD (.single "source") none (readNullable readNumeralText)
    <*> members.fieldD (.single "target") none (readNullable readNumeralText)

/-- Reads multiplicities, if they are an object. -/
def readSides : Json.Value → Reading (Option Sides)
  | .object members => some <$> Sides.read members
  | _ => .read none

/-- Reads a relationship. -/
def Relationship.read : Json.Value → Reading Relationship :=
  readObject fun members => Relationship.mk
    <$> members.fieldD (.single "name") none readLabel
    <*> members.fieldD (.single "action") none readLabel
    <*> members.fieldD (.single "verb") none readLabel
    <*> members.fieldD ⟨"sourceEntity", "source_entity"⟩ none readLabel
    <*> members.fieldD ⟨"targetEntity", "target_entity"⟩ none readLabel
    <*> members.fieldD ⟨"sourceTable", "source_table"⟩ none readLabel
    <*> members.fieldD ⟨"targetTable", "target_table"⟩ none readLabel
    <*> members.fieldD (.single "type") none readLabel
    <*> members.fieldD ⟨"isIdentifying", "is_identifying"⟩ false readSwitch
    <*> members.fieldD ⟨"sourceCardinality", "source_cardinality"⟩ none readLabel
    <*> members.fieldD ⟨"targetCardinality", "target_cardinality"⟩ none readLabel
    <*> members.fieldD ⟨"sourceParticipation", "source_participation"⟩ none readLabel
    <*> members.fieldD ⟨"targetParticipation", "target_participation"⟩ none readLabel
    <*> members.fieldD (.single "cardinality") none readSides
    <*> members.fieldD (.single "description") none readLabel
    <*> members.fieldD (.single "attributes") [] (readItems Attribute.read)

/-- Reads an extraction. -/
def read : Json.Value → Reading Extraction :=
  readObject fun members => Extraction.mk
    <$> members.fieldD (.single "entities") [] (readItems Entity.read)
    <*> members.fieldD (.single "relationships") [] (readItems Relationship.read)

/-- A value that says nothing: null, false, zero, or an empty text, list or object. -/
def isVoid : Json.Value → Bool
  | .null => true
  | .bool b => !b
  | .integer n => n == 0
  | .float x => x.toInt? == some 0
  | .text s => s.isEmpty
  | .list items => items.isEmpty
  | .object members => members.isEmpty

/-- The document of an extraction whose entities and relationships are given apart. A part that
says nothing is an empty list. -/
def document (entities relationships : Json.Value) : Json.Value :=
  let part (value : Json.Value) : Json.Value := if isVoid value then .list [] else value
  .object [("entities", part entities), ("relationships", part relationships)]

/-- Reads an extraction whose entities and relationships are given apart. -/
def ofParts (entities relationships : Json.Value) : Reading Extraction :=
  read (document entities relationships)

end Schemata.Extraction
