import Schemata.Inference
import Schemata.Moment

/-!
# Schemas

A `Schema` is a list of tables with their columns, and a list of relationships between the tables.
Nothing in these types asks a schema to be in order: names may repeat and references may lead
nowhere. `Schema.issues` lists what is amiss (`Schemata.Schema.Check`).
-/

namespace Schemata

/-- The column that a foreign key refers to, and what happens to the row when it changes. -/
structure Reference where
  /-- The name of the table. -/
  table : String
  /-- The name of the column. -/
  column : String
  /-- What follows if the row referred to is deleted. -/
  onDelete : String := "CASCADE"
  /-- What follows if the value referred to changes. -/
  onUpdate : String := "CASCADE"
deriving DecidableEq, Repr

/-- A column of a table. -/
structure Column where
  /-- The name. -/
  name : String
  /-- The type, as text; see `DataType`. -/
  dataType : String := defaultType
  /-- Whether the column belongs to the primary key. -/
  isPrimaryKey : Bool := false
  /-- Whether the column is a foreign key. -/
  isForeignKey : Bool := false
  /-- Whether the column may be left open. -/
  isNullable : Bool := true
  /-- Whether no two rows agree in the column. -/
  isUnique : Bool := false
  /-- The value taken where none is given. -/
  defaultValue : Option String := none
  /-- The column referred to. -/
  references : Option Reference := none
  /-- What the column means. -/
  description : String := ""
deriving DecidableEq, Repr

/-- The reference of a column that is a foreign key. -/
def Column.foreignKey? (c : Column) : Option Reference :=
  if c.isForeignKey then c.references else none

/-- A place on a drawing. -/
structure Position where
  /-- The distance from the left. -/
  x : Binary64 := .zero
  /-- The distance from the top. -/
  y : Binary64 := .zero
  /-- Whether the place may be changed by dragging. -/
  isDraggable : Bool := true
deriving DecidableEq, Repr

/-- A table. -/
structure Table where
  /-- The name. -/
  name : String
  /-- The columns, in order. -/
  columns : List Column := []
  /-- What the table holds. -/
  description : String := ""
  /-- Whether the rows are identified through those of another table. -/
  isWeakEntity : Bool := false
  /-- Whether the table holds a fixed set of values. -/
  isLookupTable : Bool := false
  /-- Whether the table stands for a many-to-many relationship. -/
  isJunctionTable : Bool := false
  /-- The place of the table on a drawing. -/
  position : Option Position := none
deriving DecidableEq, Repr

namespace Table

/-- The columns of the primary key, in order. -/
def keyColumns (t : Table) : List Column :=
  t.columns.filter (·.isPrimaryKey)

/-- The columns that are foreign keys with a reference, in order, each with its reference. -/
def foreignKeys (t : Table) : List (Column × Reference) :=
  t.columns.filterMap fun c => c.foreignKey?.map (c, ·)

/-- The first column of a name. -/
def column? (t : Table) (name : String) : Option Column :=
  t.columns.find? (·.name == name)

/-- Whether there is a column of a name. -/
def hasColumn (t : Table) (name : String) : Bool :=
  t.columns.any (·.name == name)

/-- Changes the columns of a name. -/
def mapColumns (t : Table) (name : String) (f : Column → Column) : Table :=
  { t with columns := t.columns.map fun c => if c.name == name then f c else c }

end Table

/-- How many rows on either side of a relationship belong together. -/
inductive RelationshipKind where
  /-- One row to one row. -/
  | oneToOne
  /-- One row of the source to many of the target. -/
  | oneToMany
  /-- Many rows of the source to one of the target. -/
  | manyToOne
  /-- Many rows to many rows. -/
  | manyToMany
deriving DecidableEq, Repr

/-- Whether every row of a side takes part in a relationship. -/
inductive Participation where
  /-- Every row does. -/
  | total
  /-- A row need not. -/
  | partly
deriving DecidableEq, Repr

/-- How often the rows of a side take part. -/
inductive Multiplicity where
  /-- Once. -/
  | one
  /-- Any number of times. -/
  | many
  /-- At most once. -/
  | zeroOrOne
deriving DecidableEq, Repr

/-- Multiplicities that stand above those of the kind of a relationship. -/
structure Multiplicities where
  /-- That of the source. -/
  source : Option Multiplicity := none
  /-- That of the target. -/
  target : Option Multiplicity := none
deriving DecidableEq, Repr

/-- A relationship between two tables. -/
structure Relationship where
  /-- The name. -/
  name : String
  /-- The name of the source. -/
  sourceTable : String
  /-- The name of the target. -/
  targetTable : String
  /-- The label of the source. -/
  sourceEntity : String
  /-- The label of the target. -/
  targetEntity : String
  /-- The kind. -/
  kind : RelationshipKind := .oneToMany
  /-- Whether the source identifies the target. -/
  isIdentifying : Bool := false
  /-- The cardinality of the source, as text. -/
  sourceCardinality : Option String := none
  /-- The cardinality of the target, as text. -/
  targetCardinality : Option String := none
  /-- The participation of the source. -/
  sourceParticipation : Participation := .partly
  /-- The participation of the target. -/
  targetParticipation : Participation := .partly
  /-- Multiplicities that stand above those of the kind. -/
  cardinality : Option Multiplicities := none
  /-- The attributes of the relationship itself. -/
  attributes : List Column := []
  /-- What the relationship means. -/
  description : String := ""
deriving DecidableEq, Repr

/-- Tables with their relationships. -/
structure Schema where
  /-- The name. -/
  name : String := "New Schema"
  /-- What the schema describes. -/
  description : String := ""
  /-- The tables, in order. -/
  tables : List Table := []
  /-- The relationships, in order. -/
  relationships : List Relationship := []
  /-- The number of the version. -/
  version : Int := 1
  /-- The moment at which the schema was made. -/
  createdAt : Moment
  /-- The moment of the last change. -/
  updatedAt : Moment
deriving DecidableEq, Repr

namespace Schema

/-- The first table of a name. -/
def table? (s : Schema) (name : String) : Option Table :=
  s.tables.find? (·.name == name)

/-- The names of the tables. -/
def tableNames (s : Schema) : List String :=
  s.tables.map (·.name)

end Schema

/-! ## Words for the choices -/

/-- The kinds of relationship, with the words for them. -/
def RelationshipKind.words : List (String × RelationshipKind) :=
  [("ONE_TO_ONE", .oneToOne), ("ONE_TO_MANY", .oneToMany), ("MANY_TO_ONE", .manyToOne),
   ("MANY_TO_MANY", .manyToMany)]

/-- The word for a kind of relationship. -/
def RelationshipKind.word : RelationshipKind → String
  | .oneToOne => "ONE_TO_ONE"
  | .oneToMany => "ONE_TO_MANY"
  | .manyToOne => "MANY_TO_ONE"
  | .manyToMany => "MANY_TO_MANY"

theorem RelationshipKind.lookup_word (k : RelationshipKind) : words.lookup k.word = some k := by
  cases k <;> rfl

/-- The participations, with the words for them. -/
def Participation.words : List (String × Participation) :=
  [("TOTAL", .total), ("PARTIAL", .partly)]

/-- The word for a participation. -/
def Participation.word : Participation → String
  | .total => "TOTAL"
  | .partly => "PARTIAL"

theorem Participation.lookup_word (p : Participation) : words.lookup p.word = some p := by
  cases p <;> rfl

/-- The multiplicities, with the words for them. -/
def Multiplicity.words : List (String × Multiplicity) :=
  [("one", .one), ("many", .many), ("zero-or-one", .zeroOrOne)]

/-- The word for a multiplicity. -/
def Multiplicity.word : Multiplicity → String
  | .one => "one"
  | .many => "many"
  | .zeroOrOne => "zero-or-one"

theorem Multiplicity.lookup_word (m : Multiplicity) : words.lookup m.word = some m := by
  cases m <;> rfl

end Schemata
