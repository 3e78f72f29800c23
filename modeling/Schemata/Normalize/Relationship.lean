import Schemata.Normalize.Diagnostic
import Schemata.Normalize.Kind
import Schemata.Schema.Lookup

/-!
# Relationships between tables

`Normalize.placeAll` goes through the relationships of an extraction. Each one whose ends are
tables is kept, and unless it is many-to-many one of its tables gets a foreign key to the other. The
steps after it make tables weak that are identified through others (`identifyAll`), move references
away from keys that are no longer unique (`retarget`), and recognise lookup tables (`detectLookups`).
-/

namespace Schemata.Normalize

open Extraction (given?)

/-- Changes the tables of a name. -/
def mapTable (tables : List Table) (name : String) (f : Table → Table) : List Table :=
  tables.map fun t => if t.name == name then f t else t

/-- The table of a name. -/
def table? (tables : List Table) (name : String) : Option Table :=
  tables.find? (·.name == name)

/-! ## Foreign keys -/

/-- The table that holds the foreign key for a relationship and the table it refers to, if there is
a foreign key. -/
def holder? (kind : RelationshipKind) (source target : String) : Option (String × String) :=
  match kind with
  | .oneToOne => some (target, source)
  | .oneToMany => some (target, source)
  | .manyToOne => some (source, target)
  | .manyToMany => none

/-- The tables with the foreign key for a relationship. -/
def placeForeignKey (tables : List Table) (kind : RelationshipKind) (source target : String) :
    List Table :=
  match holder? kind source target with
  | some (holder, referenced) =>
    match table? tables referenced with
    | some other => mapTable tables holder (·.withForeignKey other)
    | none => tables
  | none => tables

/-- The name of a relationship: the first label given, or a word for its kind. -/
def relationshipName (r : Extraction.Relationship) (kind : RelationshipKind) : String :=
  (((given? r.name).or (given? r.action)).or (given? r.verb)).getD
    (if kind = .oneToMany then "has" else "relates_to")

/-- The relationship between two tables. -/
def relationshipFor (r : Extraction.Relationship) (kind : RelationshipKind)
    (source target sourceTable targetTable : String) : Relationship where
  name := relationshipName r kind
  sourceTable := sourceTable
  targetTable := targetTable
  sourceEntity := source
  targetEntity := target
  kind := kind
  isIdentifying := r.isIdentifying
  sourceCardinality := r.sourceCardinality
  targetCardinality := r.targetCardinality
  sourceParticipation := .ofText r.sourceParticipation
  targetParticipation := .ofText r.targetParticipation
  cardinality := r.cardinality.bind Multiplicities.ofSides?
  attributes := r.attributes.map (·.relationshipColumn)
  description := (given? r.description).getD
    s!"Relationship between {sourceTable} and {targetTable}"

/-- The labels of source and target, if both are given. -/
def ends? (r : Extraction.Relationship) : Option (String × String) := do
  let source ← (given? r.sourceEntity).or (given? r.sourceTable)
  let target ← (given? r.targetEntity).or (given? r.targetTable)
  return (source, target)

/-- The tables with the foreign key of a relationship, and the relationship if it is kept. -/
def placeRelationship (tables : List Table) (r : Extraction.Relationship) :
    Noted (List Table × Option Relationship) :=
  match ends? r with
  | none => do
    Noted.note (.missingEnd r.name)
    return (tables, none)
  | some (source, target) =>
    let sourceTable := table? tables (tableName (some source))
    let targetTable := table? tables (tableName (some target))
    match sourceTable, targetTable with
    | some s, some t => do
      let (kind, assumed) := RelationshipKind.assumed r.type
      Noted.noteIf (assumed && (given? r.type).isSome)
        (.unknownKind s.name t.name (r.type.getD ""))
      return (placeForeignKey tables kind s.name t.name,
        some (relationshipFor r kind source target s.name t.name))
    | _, _ => do
      Noted.note (.unresolvedEnd r.name source target sourceTable.isSome targetTable.isSome)
      return (tables, none)

/-- The tables with the foreign keys of all relationships, and the relationships kept. -/
def placeAll (tables : List Table) (relationships : List Extraction.Relationship) :
    Noted (List Table × List Relationship) :=
  Noted.fold
    (fun state r => do
      let (tables, kept) ← placeRelationship state.1 r
      return (tables, state.2 ++ kept.toList))
    (tables, []) relationships

/-! ## Weak entities -/

/-- The tables with the target of an identifying relationship as a weak entity of the source. -/
def identify (tables : List Table) (r : Relationship) : Noted (List Table) :=
  if !r.isIdentifying then return tables
  else if r.sourceTable = r.targetTable then do
    Noted.note (.selfIdentifying r.targetTable)
    return tables
  else match table? tables r.sourceTable, table? tables r.targetTable with
    | some owner, some dependent => do
      let (weak, partialAdded) := dependent.withIdentifyingKey owner
      Noted.note (.weakEntity r.targetTable r.sourceTable)
      Noted.noteIf partialAdded (.partialKeyAdded r.targetTable)
      return mapTable tables r.targetTable fun _ => weak
    | _, _ => return tables

/-- The tables with the weak entities of all identifying relationships. -/
def identifyAll (tables : List Table) (relationships : List Relationship) : Noted (List Table) :=
  Noted.fold identify tables relationships

/-! ## References to keys of several columns -/

/-- The column of a key of several columns to which references are moved, if it is no reference
itself. -/
def ownTarget? (tables : List Table) (name : String) : Option Column :=
  match table? tables name with
  | some t =>
    if 1 < t.keyColumns.length && !t.referencedKey.isForeignKey then some t.referencedKey else none
  | none => none

/-- The column with its reference moved, if it goes to a table whose key has several columns. -/
def retargetColumn (tables : List Table) (table : String) (c : Column) : Noted Column :=
  match c.references with
  | none => return c
  | some reference =>
    match ownTarget? tables reference.table with
    | none => return c
    | some key =>
      if reference.column = key.name then return c
      else do
        Noted.note (.retargeted table c.name reference.table key.name)
        return { c with
          dataType := key.dataType
          references := some { reference with column := key.name } }

/-- Whether some column refers to a table. -/
def isReferenced (tables : List Table) (name : String) : Bool :=
  tables.any fun t => t.columns.any fun c => c.references.any (·.table == name)

/-- The columns to which references were moved, as unique ones. -/
def markUnique (tables : List Table) (t : Table) : Table :=
  match ownTarget? tables t.name with
  | some key =>
    if isReferenced tables t.name then t.mapColumns key.name fun c => { c with isUnique := true }
    else t
  | none => t

/-- The tables with every reference to a key of several columns moved to the one among them that is
no reference, and this column marked as unique. -/
def retarget (tables : List Table) : Noted (List Table) := do
  let moved ← Noted.each
    (fun t => do
      let columns ← Noted.each (retargetColumn tables t.name) t.columns
      return { t with columns })
    tables
  return moved.map (markUnique tables)

/-! ## Lookup tables -/

/-- Whether a text is one that a table is described with by default, or empty. -/
def isPlainDescription (text : String) : Bool :=
  text.isEmpty || "Table for ".toList.isPrefixOf text.toList

/-- The table marked as a lookup table, if it seems to be one. -/
def detectLookup (small : Int) (t : Table) : Noted Table :=
  if !t.isLookupTable && t.looksLikeLookup small lookupKeywords then do
    Noted.note (.lookupDetected t.name)
    let spaced := String.ofList (t.name.toList.map fun c => if c = '_' then ' ' else c)
    let description :=
      if isPlainDescription t.description then s!"Lookup table for {spaced} values"
      else t.description
    return { t with isLookupTable := true, description }
  else return t

/-- The tables with the lookup tables among them marked. -/
def detectLookups (small : Int) (tables : List Table) : Noted (List Table) :=
  Noted.each (detectLookup small) tables

end Schemata.Normalize
