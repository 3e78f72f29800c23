import Schemata.Docs.Grid
import Schemata.Docs.Markup

/-!
# Documentation as a page

`Document.page` lays a document out as a page of marked-up text, and `Document.html` writes the page.
The page has a table of contents whose links lead to the sections.
-/

namespace Schemata.Docs

/-- The rules for the looks of a page. -/
def styleRules : String :=
  String.intercalate "\n"
    ["",
     "    body \x7b font-family: -apple-system, \"Segoe UI\", Roboto, Helvetica, Arial, sans-serif;",
     "           line-height: 1.6; color: #333; max-width: 1200px; margin: 0 auto; padding: 20px; \x7d",
     "    h1, h2, h3, h4 \x7b color: #2c3e50; margin-top: 1.5em; \x7d",
     "    table \x7b border-collapse: collapse; width: 100%; margin-bottom: 20px; font-size: 0.9em; \x7d",
     "    th, td \x7b border: 1px solid #ddd; padding: 8px; text-align: left; \x7d",
     "    th \x7b background-color: #f2f2f2; font-weight: 600; \x7d",
     "    tr:nth-child(even) \x7b background-color: #f9f9f9; \x7d",
     "    .table-container \x7b margin-bottom: 30px; padding: 15px; border-radius: 5px;",
     "                       box-shadow: 0 2px 4px rgba(0,0,0,0.1); \x7d",
     "    .toc \x7b background-color: #f8f9fa; padding: 15px; border-radius: 5px; margin-bottom: 30px; \x7d",
     "    .toc ul \x7b list-style-type: none; padding-left: 20px; \x7d",
     "    .primary-key \x7b background-color: #e8f4f8; \x7d",
     "    .foreign-key \x7b background-color: #f8f4e8; \x7d",
     "    .weak-entity \x7b border-left: 4px solid #f59e0b; \x7d",
     "    .lookup-table \x7b border-left: 4px solid #10b981; \x7d",
     "    .junction-table \x7b border-left: 4px solid #8b5cf6; \x7d",
     "    .strong-entity \x7b border-left: 4px solid #3b82f6; \x7d",
     "    .badge \x7b display: inline-block; padding: 3px 8px; border-radius: 4px; margin-left: 10px;",
     "             font-size: 0.8em; font-weight: 600; background-color: #dbeafe; color: #1e40af; \x7d",
     "    .identifying \x7b background-color: #fef3c7; color: #92400e; \x7d",
     "    .center-text \x7b text-align: center; \x7d",
     "    .check \x7b color: #22c55e; font-weight: bold; \x7d",
     "    .note \x7b background-color: #f9fafb; padding: 15px; border-left: 4px solid #3b82f6; margin: 20px 0; \x7d",
     "    .timestamp \x7b font-size: 0.9em; color: #6b7280; margin-top: 30px; border-top: 1px solid #e5e7eb; \x7d",
     ""]

/-- The classes of the sections about the entity types. -/
def EntityType.cssClasses : List (EntityType × String) :=
  [(weak, "weak-entity"), (lookup, "lookup-table"), (junction, "junction-table"),
   (strong, "strong-entity")]

/-- The class of the section about an entity type. -/
def EntityType.cssClass (e : EntityType) : String :=
  (cssClasses.lookup e).getD "strong-entity"

/-- A cell on a page. -/
def Cell.tokens : Cell → List Token
  | text s => [.text s]
  | check on => if on then element "span" [("class", "check")] [.text checkMark] else []
  | badge s highlighted =>
    element "span" [("class", if highlighted then "badge identifying" else "badge")] [.text s]

/-- The attributes of a cell under a heading. -/
def Heading.cellAttributes (h : Heading) : List (String × String) :=
  if h.isCentred then [("class", "center-text")] else []

/-- A row of a grid on a page. -/
def rowLines (headings : List Heading) (row : List Cell) : List MarkupLine :=
  ⟨8, [.start "tr" []]⟩
    :: (headings.zip row).map (fun (h, cell) => ⟨10, element "td" h.cellAttributes cell.tokens⟩)
    ++ [⟨8, [.stop "tr"]⟩]

/-- A grid on a page. -/
def Grid.lines (g : Grid) : List MarkupLine :=
  [⟨4, [.start "table" []]⟩, ⟨6, [.start "thead" []]⟩, ⟨8, [.start "tr" []]⟩]
    ++ g.headings.map (fun h => ⟨10, element "th" h.cellAttributes [.text h.text]⟩)
    ++ [⟨8, [.stop "tr"]⟩, ⟨6, [.stop "thead"]⟩, ⟨6, [.start "tbody" []]⟩]
    ++ g.rows.flatMap (rowLines g.headings)
    ++ [⟨6, [.stop "tbody"]⟩, ⟨4, [.stop "table"]⟩]

/-- A link to a section. -/
def linkTo (anchor label : String) : List Token :=
  element "a" [("href", "#" ++ anchor)] [.text label]

/-- A section heading to which links lead. -/
def sectionHeading (anchor label : String) : MarkupLine :=
  ⟨2, element "h2" [("id", anchor)] [.text label]⟩

/-- The start of a block of a class. -/
def blockStart (cssClass : String) : MarkupLine :=
  ⟨2, [.start "div" [("class", cssClass)]]⟩

/-- The end of a block. -/
def blockEnd : MarkupLine :=
  ⟨2, [.stop "div"]⟩

/-- A paragraph on a page, if it is not empty. -/
def paragraphLine (indent : Nat) (text : String) : List MarkupLine :=
  if text.isEmpty then [] else [⟨indent, textElement "p" text⟩]

/-- The section about a table. -/
def TableFacts.lines (t : TableFacts) : List MarkupLine :=
  [blockStart ("table-container " ++ t.entityType.cssClass),
   ⟨4, element "h3" [("id", t.anchor)]
     ([.text t.name, .text " "]
       ++ element "span" [("class", "badge")] [.text t.entityType.label])⟩]
    ++ paragraphLine 4 t.description
    ++ ⟨4, textElement "h4" "Columns"⟩ :: (columnGrid t.columns).lines
    ++ (if t.references.isEmpty then []
        else ⟨4, textElement "h4" "Foreign Key References"⟩
          :: (referenceGrid t.references).lines)
    ++ [blockEnd]

/-- The section about the attributes of a relationship. -/
def AttributeSection.lines (a : AttributeSection) : List MarkupLine :=
  [blockStart "table-container", ⟨4, textElement "h4" a.title⟩]
    ++ (attributeGrid a.rows).lines ++ [blockEnd]

/-- The table of contents. -/
def Document.contents (d : Document) : List MarkupLine :=
  [blockStart "toc", ⟨4, textElement "h2" "Table of Contents"⟩, ⟨4, [.start "ul" []]⟩,
   ⟨6, .start "li" [] :: linkTo "tables" "Tables"⟩, ⟨8, [.start "ul" []]⟩]
    ++ d.tables.map (fun t => ⟨10, element "li" [] (linkTo t.anchor t.name)⟩)
    ++ [⟨8, [.stop "ul"]⟩, ⟨6, [.stop "li"]⟩,
        ⟨6, element "li" [] (linkTo "relationships" "Relationships")⟩,
        ⟨6, element "li" [] (linkTo "er-diagram" "ER Diagram")⟩,
        ⟨6, element "li" [] (linkTo "notes" "Notes")⟩,
        ⟨4, [.stop "ul"]⟩, blockEnd]

/-- The head of a page. -/
def Document.head (d : Document) : List MarkupLine :=
  [⟨0, [.doctype]⟩, ⟨0, [.start "html" [("lang", "en")]]⟩, ⟨0, [.start "head" []]⟩,
   ⟨2, [.start "meta" [("charset", "UTF-8")]]⟩,
   ⟨2, [.start "meta"
     [("name", "viewport"), ("content", "width=device-width, initial-scale=1.0")]]⟩,
   ⟨2, textElement "title" d.title⟩,
   ⟨2, element "style" [] [.rules (styleRules ++ "  ")]⟩, ⟨0, [.stop "head"]⟩]

/-- The sections behind those about tables and relationships. -/
def Document.closing (d : Document) : List MarkupLine :=
  [sectionHeading "er-diagram" "ER Diagram", blockStart "table-container",
   ⟨4, textElement "p" diagramIntroduction⟩, ⟨4, [.start "ul" []]⟩]
    ++ diagramNotation.map (fun item => ⟨6, textElement "li" item⟩)
    ++ [⟨4, [.stop "ul"]⟩, blockEnd, sectionHeading "notes" "Notes", blockStart "note"]
    ++ d.remarks.map (fun remark => ⟨4, textElement "p" remark⟩)
    ++ [blockEnd, blockStart "timestamp", ⟨4, textElement "p" ("Generated on: " ++ d.generated)⟩,
        blockEnd]

/-- The page for a document. -/
def Document.page (d : Document) : List MarkupLine :=
  d.head ++ [⟨0, [.start "body" []]⟩, ⟨2, textElement "h1" d.title⟩]
    ++ paragraphLine 2 d.description
    ++ [⟨2, textElement "h2" "Overview"⟩, ⟨2, textElement "p" d.overview⟩]
    ++ d.contents
    ++ [sectionHeading "tables" "Tables"] ++ d.tables.flatMap TableFacts.lines
    ++ [sectionHeading "relationships" "Relationships", blockStart "table-container"]
    ++ (relationshipGrid d.relationships).lines ++ [blockEnd]
    ++ (if d.attributeSections.isEmpty then []
        else ⟨2, textElement "h3" "Relationship Attributes"⟩
          :: d.attributeSections.flatMap AttributeSection.lines)
    ++ d.closing ++ [⟨0, [.stop "body"]⟩, ⟨0, [.stop "html"]⟩]

/-- The documentation as the text of a page. -/
def Document.html (d : Document) : String :=
  String.intercalate "\n" (d.page.map MarkupLine.render ++ [""])

end Schemata.Docs
