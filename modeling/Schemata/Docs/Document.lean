import Schemata.Schema.Basic
import Schemata.Text.Blank
import Schemata.Text.Case

/-!
# Documentation of schemas

`Document.of` collects everything that the documentation states about a schema. The formats in which
documentation is written all start from a document, so that they state the same facts.
-/

namespace Schemata.Docs

/-! ## Labels -/

/-- What a table stands for, told by its name. -/
structure EntityType where
  /-- The name. -/
  label : String
deriving DecidableEq, Repr

namespace EntityType

/-- An entity that is identified through another. -/
def weak : EntityType := ⟨"Weak Entity"⟩

/-- A fixed set of values. -/
def lookup : EntityType := ⟨"Lookup Table"⟩

/-- A many-to-many relationship. -/
def junction : EntityType := ⟨"Junction Table"⟩

/-- An entity of its own. -/
def strong : EntityType := ⟨"Strong Entity"⟩

/-- What a table stands for; a weak entity is called so even if it is something else too. -/
def of (t : Table) : EntityType :=
  if t.isWeakEntity then weak
  else if t.isLookupTable then lookup
  else if t.isJunctionTable then junction
  else strong

end EntityType

/-- The name of a kind of relationship. -/
def kindLabel : RelationshipKind → String
  | .oneToOne => "One-to-One (1:1)"
  | .oneToMany => "One-to-Many (1:N)"
  | .manyToOne => "Many-to-One (N:1)"
  | .manyToMany => "Many-to-Many (N:M)"

/-- The cardinalities of the sides of a kind of relationship. -/
def kindCardinalities : RelationshipKind → String × String
  | .oneToOne => ("1", "1")
  | .oneToMany => ("1", "N")
  | .manyToOne => ("N", "1")
  | .manyToMany => ("M", "N")

/-- The kind of relationship that a word stands for, letter case disregarded. -/
def kindOfWord? (word : String) : Option RelationshipKind :=
  RelationshipKind.words.lookup (String.ofList (Text.upper word.toList))

/-- The name of the kind of relationship for a word that may be missing or unknown. -/
def wordLabel (word : Option String) : String :=
  match word.filter (!·.isEmpty) with
  | some text => ((kindOfWord? text).map kindLabel).getD text
  | none => "Undefined"

/-- The cardinalities of the sides for a word that may be missing or unknown. -/
def wordCardinalities (word : Option String) : String × String :=
  ((word.bind kindOfWord?).map kindCardinalities).getD ("1", "1")

/-- A moment in words, if there is one. -/
def dateLabel : Option Moment → String
  | some m => m.long
  | none => "Unknown"

/-- The anchor of the section for a name: in lower case, with hyphens for blanks. -/
def sectionAnchor (name : String) : String :=
  String.ofList (Text.replaceRuns Text.isBlank '-' (Text.lower name.toList))

/-! ## Facts -/

/-- What is stated about a column. -/
structure ColumnFacts where
  /-- The name. -/
  name : String
  /-- The type. -/
  dataType : String
  /-- Whether the column belongs to the primary key. -/
  isPrimaryKey : Bool
  /-- Whether the column is a foreign key. -/
  isForeignKey : Bool
  /-- Whether the column may be left open. -/
  isNullable : Bool
  /-- Whether no two rows agree in the column. -/
  isUnique : Bool
  /-- The default value, or nothing. -/
  defaultValue : String
  /-- What the column means. -/
  description : String
deriving DecidableEq, Repr

/-- What is stated about a foreign key. -/
structure ReferenceFacts where
  /-- The column. -/
  column : String
  /-- The table and the column referred to. -/
  target : String
  /-- What follows if the row referred to is deleted. -/
  onDelete : String
  /-- What follows if the value referred to changes. -/
  onUpdate : String
deriving DecidableEq, Repr

/-- What is stated about a table. -/
structure TableFacts where
  /-- The name. -/
  name : String
  /-- The anchor of the section. -/
  anchor : String
  /-- What the table holds. -/
  description : String
  /-- What the table stands for. -/
  entityType : EntityType
  /-- The columns. -/
  columns : List ColumnFacts
  /-- The foreign keys. -/
  references : List ReferenceFacts
deriving DecidableEq, Repr

/-- What is stated about a relationship. -/
structure RelationshipFacts where
  /-- The source. -/
  source : String
  /-- The name. -/
  name : String
  /-- The target. -/
  target : String
  /-- The name of the kind. -/
  kind : String
  /-- The cardinality of the source. -/
  sourceCardinality : String
  /-- The cardinality of the target. -/
  targetCardinality : String
  /-- Whether the source identifies the target. -/
  isIdentifying : Bool
  /-- What the relationship means. -/
  description : String
deriving DecidableEq, Repr

/-- What is stated about an attribute of a relationship. -/
structure AttributeFacts where
  /-- The name. -/
  name : String
  /-- The type. -/
  dataType : String
  /-- What the attribute means. -/
  description : String
deriving DecidableEq, Repr

/-- What is stated about the attributes of a relationship. -/
structure AttributeSection where
  /-- The relationship, in a line. -/
  title : String
  /-- The attributes. -/
  rows : List AttributeFacts
deriving DecidableEq, Repr

/-- What is stated about a schema. -/
structure Document where
  /-- The title. -/
  title : String
  /-- What the schema describes. -/
  description : String
  /-- The number of tables. -/
  tableCount : Int
  /-- The number of relationships. -/
  relationshipCount : Int
  /-- The tables. -/
  tables : List TableFacts
  /-- The relationships. -/
  relationships : List RelationshipFacts
  /-- The attributes of the relationships that have some. -/
  attributeSections : List AttributeSection
  /-- When the schema was made. -/
  created : String
  /-- When the schema was last changed. -/
  updated : String
  /-- The number of the version. -/
  version : Int
  /-- When the documentation was written. -/
  generated : String
  /-- The name of the program that writes the documentation. -/
  generator : String
deriving DecidableEq, Repr

/-- The name of the program that writes the documentation. -/
def generatorName : String := "nl2schema"

/-- A text, or another one where it is empty. -/
def textOr (text otherwise : String) : String :=
  if text.isEmpty then otherwise else text

/-- What is stated about a column. -/
def ColumnFacts.of (c : Column) : ColumnFacts where
  name := c.name
  dataType := c.dataType
  isPrimaryKey := c.isPrimaryKey
  isForeignKey := c.isForeignKey
  isNullable := c.isNullable
  isUnique := c.isUnique
  defaultValue := c.defaultValue.getD ""
  description := c.description

/-- What is stated about the foreign key in a column. -/
def ReferenceFacts.of (c : Column) (r : Reference) : ReferenceFacts where
  column := c.name
  target := r.table ++ "." ++ r.column
  onDelete := textOr r.onDelete "NO ACTION"
  onUpdate := textOr r.onUpdate "NO ACTION"

/-- What is stated about a table. -/
def TableFacts.of (t : Table) : TableFacts where
  name := t.name
  anchor := sectionAnchor t.name
  description := t.description
  entityType := .of t
  columns := t.columns.map .of
  references := t.foreignKeys.map fun (c, r) => .of c r

/-- The source of a relationship, as it is shown. -/
def sourceLabel (r : Relationship) : String :=
  textOr r.sourceEntity r.sourceTable

/-- The target of a relationship, as it is shown. -/
def targetLabel (r : Relationship) : String :=
  textOr r.targetEntity r.targetTable

/-- What is stated about a relationship. -/
def RelationshipFacts.of (r : Relationship) : RelationshipFacts where
  source := sourceLabel r
  name := textOr r.name "relates to"
  target := targetLabel r
  kind := kindLabel r.kind
  sourceCardinality := textOr (r.sourceCardinality.getD "") (kindCardinalities r.kind).1
  targetCardinality := textOr (r.targetCardinality.getD "") (kindCardinalities r.kind).2
  isIdentifying := r.isIdentifying
  description := r.description

/-- What is stated about the attributes of a relationship. -/
def AttributeSection.of (r : Relationship) : AttributeSection where
  title := s!"{textOr r.name defaultName} ({sourceLabel r} to {targetLabel r})"
  rows := r.attributes.map fun a => ⟨a.name, a.dataType, a.description⟩
where
  /-- The name of a relationship without one. -/
  defaultName : String := "Relationship"

/-- What is stated about a schema at the moment `now`. -/
def Document.of (s : Schema) (now : Moment) : Document where
  title := "Database Schema: " ++ s.name
  description := s.description
  tableCount := s.tables.length
  relationshipCount := s.relationships.length
  tables := s.tables.map .of
  relationships := s.relationships.map .of
  attributeSections := (s.relationships.filter fun r => !r.attributes.isEmpty).map .of
  created := s.createdAt.long
  updated := s.updatedAt.long
  version := if s.version = 0 then 1 else s.version
  generated := now.long
  generator := generatorName

end Schemata.Docs
