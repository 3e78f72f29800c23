import Schemata.Diagram.Finding
import Schemata.Diagram.Name
import Schemata.Notice
import Schemata.Schema.Basic
import Schemata.Text.Listing

/-!
# Diagrams of schemas

`Diagram.of` draws a schema as an entity-relationship diagram: an entity for each table, with its
columns as attributes, and the relationships between them. If something is amiss in the diagram,
comments at its end say so.
-/

namespace Schemata.Diagram

/-- The source lines for a column. -/
def columnLine (c : Column) (mark : String) : String :=
  let line := "        " ++ coarseType c.dataType ++ " " ++ diagramName c.name
  if mark.isEmpty then line else line ++ " " ++ mark

/-- The source lines for a table: keys first, then references, then all other columns. A table
without a key is shown with one. -/
def tableLines (t : Table) : List String :=
  let keys := t.columns.filter (·.isPrimaryKey)
  let references := t.columns.filter fun c => c.isForeignKey && !c.isPrimaryKey
  let others := t.columns.filter fun c => !c.isPrimaryKey && !c.isForeignKey
  ["    " ++ entityName t.name ++ " \x7b"]
    ++ (if keys.isEmpty then ["        number id PK"] else [])
    ++ keys.map (columnLine · "PK") ++ references.map (columnLine · "FK")
    ++ others.map (columnLine · "") ++ ["    \x7d"]

/-- The symbols for a kind of relationship. -/
def kindSymbols : RelationshipKind → Symbol × Symbol
  | .oneToOne => (.one, .one)
  | .oneToMany => (.one, .manyRight)
  | .manyToOne => (.manyLeft, .one)
  | .manyToMany => (.manyLeft, .manyRight)

/-- The symbol for a multiplicity of the source. -/
def sourceSymbol : Multiplicity → Symbol
  | .one => .one
  | .many => .manyLeft
  | .zeroOrOne => .optionalLeft

/-- The symbol for a multiplicity of the target. -/
def targetSymbol : Multiplicity → Symbol
  | .one => .one
  | .many => .manyRight
  | .zeroOrOne => .optionalRight

/-- The symbols for a relationship: those of its kind, where no multiplicity is set. -/
def symbols (r : Relationship) : Symbol × Symbol :=
  let source := (r.cardinality.bind (·.source)).map sourceSymbol
  let target := (r.cardinality.bind (·.target)).map targetSymbol
  (source.getD (kindSymbols r.kind).1, target.getD (kindSymbols r.kind).2)

/-- A text, or another one where it is empty. -/
def orElse (text otherwise : String) : String :=
  if text.isEmpty then otherwise else text

/-- The source line for a relationship. -/
def relationshipLine (r : Relationship) : String :=
  let source := entityName (orElse r.sourceTable r.sourceEntity)
  let target := entityName (orElse r.targetTable r.targetEntity)
  let (left, right) := symbols r
  let label := (orElse r.name "relates").toList.map fun c => if c = '"' then '\'' else c
  "    " ++ source ++ " " ++ String.ofList left.chars ++ "--" ++ String.ofList right.chars ++ " "
    ++ target ++ " : \"" ++ String.ofList label ++ "\""

/-- The diagram of a schema, without comments. -/
def draw (s : Schema) : String :=
  let lines := ["erDiagram"] ++ s.tables.flatMap tableLines
    ++ s.relationships.map relationshipLine
  format (String.intercalate "\n" lines)

/-- The diagram of a schema, with comments if something is amiss, and what is told of it. -/
def of (s : Schema) (limits : Limits) : String × List Notice :=
  let text := draw s
  match findings text limits with
  | [] => (text, [])
  | found =>
    (text ++ findingComments found,
      [.warning ("Mermaid syntax validation warnings: "
        ++ Text.listing (found.map Finding.message))])

end Schemata.Diagram
