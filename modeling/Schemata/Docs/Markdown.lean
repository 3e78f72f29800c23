import Schemata.Docs.Grid

/-!
# Documentation in Markdown

`Document.markdown` writes a document as Markdown. Inside of grids, bars are escaped and line feeds
become blanks; all other text is taken as it is.
-/

namespace Schemata.Docs

/-- A character inside of a cell. -/
def escapeCellChar (c : Char) : List Char :=
  if c = '|' then ['\\', '|'] else if c = '\n' then [' '] else [c]

/-- The text of a cell. -/
def Cell.plain : Cell → String
  | text s => s
  | check on => if on then checkMark else ""
  | badge s _ => s

/-- A cell in Markdown. -/
def Cell.markdown (c : Cell) : String :=
  String.ofList (c.plain.toList.flatMap escapeCellChar)

/-- Cells between bars. -/
def barred (cells : List String) : String :=
  "| " ++ String.intercalate " | " cells ++ " |"

/-- The stroke under a heading, of the same length, with colons at its ends if the column is
centred. -/
def Heading.rule (h : Heading) : String :=
  let width := h.text.length
  if h.isCentred then String.ofList (':' :: List.replicate (width - 2) '-' ++ [':'])
  else String.ofList (List.replicate width '-')

/-- A grid in Markdown. -/
def Grid.markdown (g : Grid) : List String :=
  barred (g.headings.map (·.text)) :: barred (g.headings.map (·.rule))
    :: g.rows.map fun row => barred (row.map (·.markdown))

/-- The entity types about which something is remarked. -/
def EntityType.notes : List (EntityType × String) :=
  [(weak, " *(depends on another entity for identification)*"),
   (junction, " *(resolves a many-to-many relationship)*")]

/-- What is remarked about an entity type. -/
def EntityType.note (e : EntityType) : String :=
  (notes.lookup e).getD ""

/-- A paragraph, if it is not empty. -/
def paragraph (text : String) : List String :=
  if text.isEmpty then [] else [text, ""]

/-- The section about a table. -/
def TableFacts.markdown (t : TableFacts) : List String :=
  [s!"### {t.name}", ""] ++ paragraph t.description
    ++ [s!"**Entity Type:** {t.entityType.label}{t.entityType.note}", "", "#### Columns", ""]
    ++ (columnGrid t.columns).markdown
    ++ (if t.references.isEmpty then []
        else ["", "#### Foreign Key References", ""] ++ (referenceGrid t.references).markdown)
    ++ [""]

/-- The section about the attributes of a relationship. -/
def AttributeSection.markdown (a : AttributeSection) : List String :=
  ["#### " ++ a.title, ""] ++ (attributeGrid a.rows).markdown ++ [""]

/-- The table of contents. -/
def Document.markdownContents (d : Document) : List String :=
  ["- [Tables](#tables)"] ++ d.tables.map (fun t => s!"  - [{t.name}](#{t.anchor})")
    ++ ["- [Relationships](#relationships)", "- [ER Diagram](#er-diagram)", "- [Notes](#notes)"]

/-- The lines of the documentation. -/
def Document.markdownLines (d : Document) : List String :=
  ["# " ++ d.title, ""] ++ paragraph d.description
    ++ ["## Overview", "", d.overview, "", "## Table of Contents", ""]
    ++ d.markdownContents
    ++ ["", "## Tables", ""] ++ d.tables.flatMap TableFacts.markdown
    ++ ["## Relationships", ""] ++ (relationshipGrid d.relationships).markdown
    ++ (if d.attributeSections.isEmpty then []
        else ["", "### Relationship Attributes", ""]
          ++ d.attributeSections.flatMap AttributeSection.markdown)
    ++ ["", "## ER Diagram", "", diagramIntroduction, ""]
    ++ diagramNotation.map (fun item => "- " ++ item)
    ++ ["", "## Notes", ""] ++ d.remarks.map (fun remark => "- " ++ remark) ++ [""]

/-- The documentation in Markdown. -/
def Document.markdown (d : Document) : String :=
  String.intercalate "\n" d.markdownLines

end Schemata.Docs
