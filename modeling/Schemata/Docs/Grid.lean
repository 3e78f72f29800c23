import Schemata.Docs.Document

/-!
# Tables of the documentation

A `Grid` is a table of the documentation: its headings and its cells. All formats show the same
grids.
-/

namespace Schemata.Docs

/-- A cell of a grid. -/
inductive Cell where
  /-- A text. -/
  | text (s : String)
  /-- A mark that is there or not. -/
  | check (on : Bool)
  /-- A text that stands out, more so if highlighted. -/
  | badge (s : String) (highlighted : Bool)
deriving DecidableEq, Repr

/-- The heading of a column of a grid. -/
structure Heading where
  /-- The text. -/
  text : String
  /-- Whether the column is centred. -/
  isCentred : Bool := false
deriving DecidableEq, Repr

/-- A table of the documentation. -/
structure Grid where
  /-- The headings. -/
  headings : List Heading
  /-- The rows, each with a cell for every heading. -/
  rows : List (List Cell)
deriving DecidableEq, Repr

/-- The mark in a cell. -/
def checkMark : String := "✓"

/-- The columns of a table. -/
def columnGrid (columns : List ColumnFacts) : Grid where
  headings :=
    [⟨"Name", false⟩, ⟨"Data Type", false⟩, ⟨"Primary Key", true⟩, ⟨"Foreign Key", true⟩,
     ⟨"Nullable", true⟩, ⟨"Unique", true⟩, ⟨"Default", false⟩, ⟨"Description", false⟩]
  rows := columns.map fun c =>
    [.text c.name, .text c.dataType, .check c.isPrimaryKey, .check c.isForeignKey,
     .check c.isNullable, .check c.isUnique, .text c.defaultValue, .text c.description]

/-- The foreign keys of a table. -/
def referenceGrid (references : List ReferenceFacts) : Grid where
  headings :=
    [⟨"Column", false⟩, ⟨"References", false⟩, ⟨"On Delete", false⟩, ⟨"On Update", false⟩]
  rows := references.map fun r =>
    [.text r.column, .text r.target, .text r.onDelete, .text r.onUpdate]

/-- The relationships of a schema. -/
def relationshipGrid (relationships : List RelationshipFacts) : Grid where
  headings :=
    [⟨"Source Entity", false⟩, ⟨"Relationship", false⟩, ⟨"Target Entity", false⟩,
     ⟨"Type", false⟩, ⟨"Source Cardinality", false⟩, ⟨"Target Cardinality", false⟩,
     ⟨"Identifying", true⟩, ⟨"Description", false⟩]
  rows := relationships.map fun r =>
    [.text r.source, .text r.name, .text r.target, .badge r.kind r.isIdentifying,
     .text r.sourceCardinality, .text r.targetCardinality, .check r.isIdentifying,
     .text r.description]

/-- The attributes of a relationship. -/
def attributeGrid (rows : List AttributeFacts) : Grid where
  headings := [⟨"Attribute", false⟩, ⟨"Data Type", false⟩, ⟨"Description", false⟩]
  rows := rows.map fun a => [.text a.name, .text a.dataType, .text a.description]

/-! ## Fixed sentences -/

/-- The numbers of tables and relationships in a sentence. -/
def Document.overview (d : Document) : String :=
  s!"This schema contains {d.tableCount} tables and {d.relationshipCount} relationships."

/-- What is said about the diagram of a schema. -/
def diagramIntroduction : String :=
  "The entity-relationship diagram for this schema is available as Mermaid source. It shows:"

/-- What a diagram shows. -/
def diagramNotation : List String :=
  ["Entities (tables) as named blocks listing their attributes",
   "Primary keys marked PK and foreign keys marked FK",
   "Relationships as lines labelled with their verb",
   "Cardinality shown with crow's foot symbols at each end of a line"]

/-- What is said about the schema and its documentation at the end. -/
def Document.remarks (d : Document) : List String :=
  [s!"This documentation was automatically generated by {d.generator}.",
   "Schema creation date: " ++ d.created, "Last updated: " ++ d.updated,
   "Schema version: " ++ toString d.version]

end Schemata.Docs
