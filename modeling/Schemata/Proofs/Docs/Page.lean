import Schemata.Docs.Page
import Schemata.Proofs.Docs.Grid
import Schemata.Proofs.Docs.Markup
import Schemata.Proofs.Text.Word

/-!
# Tables on a page

A grid on a page is read as what it states (`read_grid`): each of its cells stands on a line of its
own, between tags that no text can imitate. All other lines of a page are quiet, so that the tables
of a page are the grids of its document, in their order (`readTables_html`).
-/

namespace Schemata.Docs

open TableReader

variable {tables : List (List (List (List Char)))} {rows : List (List (List Char))}
  {cells : List (List Char)} {r : TableReader} {g : Grid}

/-! ## Grids -/

/-- A check mark or a badge is read as its text. -/
theorem read_cell_tokens (cell : Cell) :
    r.read (cell.tokens.flatMap (·.render.toList)) =
      ⟨r.write (cell.plain.toList.flatMap escapeChar), none⟩ := by
  have hspan : "span" ∈ quietTags := by decide
  have hname := isTagName_of_mem_quietTags _ hspan
  have helement : ∀ (r : TableReader) (cssClass s : String),
      r.read ((element "span" [("class", cssClass)] [.text s]).flatMap (·.render.toList)) =
        ⟨r.write (s.toList.flatMap escapeChar), none⟩ := by
    intro r cssClass s
    rw [element, List.cons_append, List.singleton_append, List.flatMap_cons, List.flatMap_cons,
      List.flatMap_singleton, read_append (read_start hname (by simp)), read_append (read_escape s), read_stop hname,
      (follow_of_mem_quietTags hspan _).1, (follow_of_mem_quietTags hspan _).2]
  cases cell with
  | text s => rw [Cell.tokens, List.flatMap_singleton, read_escape, Cell.plain]
  | check on =>
    cases on with
    | true => exact helement r _ _
    | false => exact (write_nil (r := r)).symm ▸ rfl
  | badge s highlighted => exact helement r _ s

/-- The attributes of cells have plain names. -/
theorem notMem_cellAttributes (h : Heading) : ∀ a ∈ h.cellAttributes, '>' ∉ a.1.toList := by
  unfold Heading.cellAttributes
  split
  · decide
  · simp

/-- **A line with a cell**, be it a heading or not. -/
theorem read_cell_line {tag : String} (htag : tag = "th" ∨ tag = "td") (indent : Nat) (h : Heading)
    (cell : Cell) :
    (TableReader.mk tables rows cells none).read
        (MarkupLine.chars ⟨indent, element tag h.cellAttributes cell.tokens⟩) =
      ⟨⟨tables, rows, cells ++ [cell.plain.toList], none⟩, none⟩ := by
  have hname : IsTagName tag := by rcases htag with rfl | rfl <;> decide
  have hstart : (TableReader.mk tables rows cells none).follow tag =
      ⟨tables, rows, cells, some []⟩ := by rcases htag with rfl | rfl <;> rfl
  have hstop : ∀ s, (TableReader.mk tables rows cells (some s)).follow ("/" ++ tag) =
      ⟨tables, rows, cells ++ [unescape s], none⟩ := by
    intro s
    rcases htag with rfl | rfl <;> rfl
  refine read_line rfl rfl ?_
  rw [element, List.cons_append, List.flatMap_cons, List.flatMap_append, List.flatMap_singleton,
    read_append (read_start hname (notMem_cellAttributes h)), hstart,
    read_append (read_cell_tokens cell), read_stop hname, write, Option.map_some, List.nil_append,
    hstop, unescape_escape]

/-- **Cells below each other** are read as cells of one row. -/
theorem readLines_cells {tag : String} (htag : tag = "th" ∨ tag = "td")
    (pairs : List (Heading × Cell)) :
    (TableReader.mk tables rows cells none).readLines
        (pairs.map fun (h, cell) => ⟨10, element tag h.cellAttributes cell.tokens⟩) =
      ⟨⟨tables, rows, cells ++ pairs.map (·.2.plain.toList), none⟩, none⟩ := by
  induction pairs generalizing cells with
  | nil => simp [readLines_nil]
  | cons pair pairs ih =>
    rw [List.map_cons, readLines_cons (read_cell_line htag 10 pair.1 pair.2), ih]
    simp

theorem read_tag_line {r r' : TableReader} (hr : r.cell = none) (hr' : r'.cell = none)
    {token : Token} (indent : Nat) (h : r.read token.render.toList = ⟨r', none⟩) :
    r.read (MarkupLine.chars ⟨indent, [token]⟩) = ⟨r', none⟩ :=
  read_line hr hr' (by rwa [List.flatMap_singleton])

/-- The lines of cells with tags for their row around them. -/
def markedRow (tag : String) (pairs : List (Heading × Cell)) : List MarkupLine :=
  ⟨8, [.start "tr" []]⟩
    :: pairs.map (fun (h, cell) => ⟨10, element tag h.cellAttributes cell.tokens⟩)
    ++ [⟨8, [.stop "tr"]⟩]

/-- **A row**, be it that of the headings or not. -/
theorem readLines_markedRow {tag : String} (htag : tag = "th" ∨ tag = "td")
    (pairs : List (Heading × Cell)) :
    (TableReader.mk tables rows cells none).readLines (markedRow tag pairs) =
      ⟨⟨tables, rows ++ [pairs.map (·.2.plain.toList)], [], none⟩, none⟩ := by
  have hstart : (TableReader.mk tables rows cells none).read
      (MarkupLine.chars ⟨8, [.start "tr" []]⟩) = ⟨⟨tables, rows, [], none⟩, none⟩ :=
    read_tag_line rfl rfl 8 (read_start (by decide) (by simp))
  have hstop : ∀ cells, (TableReader.mk tables rows cells none).read
      (MarkupLine.chars ⟨8, [.stop "tr"]⟩) = ⟨⟨tables, rows ++ [cells], [], none⟩, none⟩ :=
    fun _ => read_tag_line rfl rfl 8 (read_stop (by decide))
  rw [markedRow, List.cons_append, readLines_cons hstart, readLines_append (readLines_cells htag _),
    readLines_cons (hstop _), readLines_nil, List.nil_append]

theorem readLines_rows {headings : List Heading} {body : List (List Cell)}
    (hlength : ∀ row ∈ body, row.length = headings.length) :
    (TableReader.mk tables rows [] none).readLines (body.flatMap (rowLines headings)) =
      ⟨⟨tables, rows ++ body.map fun row => row.map (·.plain.toList), [], none⟩, none⟩ := by
  induction body generalizing rows with
  | nil => simp [readLines_nil]
  | cons row body ih =>
    have hcells : (headings.zip row).map (·.2.plain.toList) = row.map (·.plain.toList) := by
      have hsnd := List.map_snd_zip (Nat.le_of_eq (hlength row (by simp)))
      rw [← congrArg (List.map fun cell : Cell => cell.plain.toList) hsnd, List.map_map]
      rfl
    have hrow : rowLines headings row = markedRow "td" (headings.zip row) := rfl
    rw [List.flatMap_cons, hrow, readLines_append (readLines_markedRow (.inr rfl) _), hcells,
      ih fun row hrow => hlength row (by simp [hrow])]
    simp

/-- **A grid is read as what it states.** -/
theorem readLines_grid (hg : g.IsRegular) :
    (TableReader.mk tables rows cells none).readLines g.lines =
      ⟨⟨tables ++ [g.texts], [], [], none⟩, none⟩ := by
  have hlines : g.lines = ⟨4, [.start "table" []]⟩ :: ([⟨6, [.start "thead" []]⟩]
      ++ (markedRow "th" (g.headings.map fun h => (h, Cell.text h.text))
      ++ ([⟨6, [.stop "thead"]⟩, ⟨6, [.start "tbody" []]⟩]
      ++ (g.rows.flatMap (rowLines g.headings)
      ++ ([⟨6, [.stop "tbody"]⟩] ++ [⟨4, [.stop "table"]⟩]))))) := by
    simp [Grid.lines, markedRow, Cell.tokens]
  have hstart : (TableReader.mk tables rows cells none).read
      (MarkupLine.chars ⟨4, [.start "table" []]⟩) = ⟨⟨tables, [], cells, none⟩, none⟩ :=
    read_tag_line rfl rfl 4 (read_start (by decide) (by simp))
  have hstop : ∀ rows, (TableReader.mk tables rows [] none).read
      (MarkupLine.chars ⟨4, [.stop "table"]⟩) = ⟨⟨tables ++ [rows], [], [], none⟩, none⟩ :=
    fun _ => read_tag_line rfl rfl 4 (read_stop (by decide))
  have hquiet : ∀ (r : TableReader) (lines : List MarkupLine), r.cell = none →
      (∀ line ∈ lines, ∀ token ∈ line.tokens, token.IsQuiet) → r.readLines lines = ⟨r, none⟩ :=
    fun r lines hr h => readLines_quiet hr h
  rw [hlines, readLines_cons hstart, readLines_append (hquiet _ _ rfl ?_),
    readLines_append (readLines_markedRow (.inl rfl) _), readLines_append (hquiet _ _ rfl ?_),
    readLines_append (readLines_rows hg.length_row), readLines_append (hquiet _ _ rfl ?_),
    readLines_cons (hstop _), readLines_nil, Grid.texts, List.map_map]
  · rfl
  all_goals simp [Token.IsQuiet, quietTags]

/-! ## Pages -/

/-- The lines show the grids: a reader outside of tables has read them afterwards. -/
def Shows (lines : List MarkupLine) (grids : List Grid) : Prop :=
  ∀ tables, (TableReader.mk tables [] [] none).readLines lines =
    ⟨⟨tables ++ grids.map Grid.texts, [], [], none⟩, none⟩

namespace Shows

variable {lines more : List MarkupLine} {grids others : List Grid}

theorem quiet (h : ∀ line ∈ lines, ∀ token ∈ line.tokens, token.IsQuiet) : Shows lines [] := by
  intro tables
  rw [readLines_quiet rfl h, List.map_nil, List.append_nil]

theorem grid (hg : g.IsRegular) : Shows g.lines [g] := fun _ => readLines_grid hg

theorem append (h : Shows lines grids) (hmore : Shows more others) :
    Shows (lines ++ more) (grids ++ others) := by
  intro tables
  rw [readLines_append (h tables), hmore, List.map_append, List.append_assoc]

theorem before (h : Shows lines []) (hmore : Shows more grids) : Shows (lines ++ more) grids :=
  h.append hmore

theorem behind (h : Shows lines grids) (hmore : Shows more []) : Shows (lines ++ more) grids := by
  simpa using h.append hmore

theorem flatMap {α : Type} {parts : List α} {lines : α → List MarkupLine} {grids : α → List Grid}
    (h : ∀ part ∈ parts, Shows (lines part) (grids part)) :
    Shows (parts.flatMap lines) (parts.flatMap grids) := by
  induction parts with
  | nil => exact quiet (by simp)
  | cons part parts ih =>
    exact (h part (by simp)).append (ih fun part hpart => h part (by simp [hpart]))

end Shows

theorem shows_paragraphLine (indent : Nat) (text : String) :
    Shows (paragraphLine indent text) [] := by
  unfold paragraphLine
  split
  · exact .quiet (by simp)
  · exact .quiet (by simp [textElement, element, Token.IsQuiet, quietTags])

theorem shows_blockEnd : Shows [blockEnd] [] :=
  .quiet (by simp [blockEnd, Token.IsQuiet, quietTags])

/-- The parts of the section about a table, one after another. -/
theorem TableFacts.lines_eq (t : TableFacts) :
    t.lines = [blockStart ("table-container " ++ t.entityType.cssClass),
      ⟨4, element "h3" [("id", t.anchor)] ([.text t.name, .text " "]
        ++ element "span" [("class", "badge")] [.text t.entityType.label])⟩]
      ++ (paragraphLine 4 t.description ++ ([⟨4, textElement "h4" "Columns"⟩]
      ++ ((columnGrid t.columns).lines
      ++ (if t.references.isEmpty then [] else [⟨4, textElement "h4" "Foreign Key References"⟩]
        ++ (referenceGrid t.references).lines)) ++ [blockEnd])) := by
  simp [TableFacts.lines]

theorem TableFacts.shows_lines (t : TableFacts) : Shows t.lines t.grids := by
  have hreferences : Shows
      (if t.references.isEmpty then [] else [⟨4, textElement "h4" "Foreign Key References"⟩]
        ++ (referenceGrid t.references).lines)
      (if t.references.isEmpty then [] else [referenceGrid t.references]) := by
    split
    · exact .quiet (by simp)
    · exact .before (.quiet (by simp [textElement, element, Token.IsQuiet, quietTags]))
        (.grid (isRegular_referenceGrid t.references))
  have hgrids := Shows.append (.grid (isRegular_columnGrid t.columns)) hreferences
  rw [t.lines_eq]
  refine .before (.quiet ?_) (.before (shows_paragraphLine 4 t.description)
    (.behind (.before (.quiet ?_) hgrids) shows_blockEnd))
  · simp [blockStart, element, Token.IsQuiet, quietTags]
  · simp [textElement, element, Token.IsQuiet, quietTags]

theorem AttributeSection.shows_lines (a : AttributeSection) :
    Shows a.lines [attributeGrid a.rows] := by
  refine .behind (.before (.quiet ?_) (.grid (isRegular_attributeGrid a.rows))) shows_blockEnd
  simp [blockStart, textElement, element, Token.IsQuiet, quietTags]

theorem notMem_of_eq {c : Char} {s : String} {chars : List Char} (h : s = String.ofList chars)
    (hc : c ∉ chars) : c ∉ s.toList := by
  rwa [h, String.toList_ofList]

/-- The rules of the style sheet neither start a tag nor name a character. -/
theorem notMem_styleRules {c : Char} (hc : c = '<' ∨ c = '&') : c ∉ styleRules.toList := by
  refine Text.notMem_intercalate ?_ ?_
  · rcases hc with rfl | rfl <;> decide
  -- a literal is compared with a list of characters, so that it need not be decoded
  · simp only [List.forall_mem_cons]
    rcases hc with rfl | rfl <;> and_intros <;> first | exact notMem_of_eq rfl (by decide) | simp

theorem Document.shows_head (d : Document) : Shows d.head [] := by
  refine .quiet ?_
  simp [Document.head, textElement, element, Token.IsQuiet, quietTags, notMem_styleRules, or_imp,
    forall_and]

theorem Document.shows_contents (d : Document) : Shows d.contents [] := by
  refine .quiet ?_
  simp [Document.contents, linkTo, blockStart, blockEnd, textElement, element, Token.IsQuiet,
    quietTags, or_imp, forall_and]

theorem Document.shows_closing (d : Document) : Shows d.closing [] := by
  refine .quiet ?_
  simp [Document.closing, sectionHeading, blockStart, blockEnd, textElement, element,
    Token.IsQuiet, quietTags, or_imp, forall_and]

theorem shows_attributeSections (sections : List AttributeSection) :
    Shows (if sections.isEmpty then [] else [⟨2, textElement "h3" "Relationship Attributes"⟩]
        ++ sections.flatMap AttributeSection.lines)
      (sections.map fun a => attributeGrid a.rows) := by
  cases sections with
  | nil => exact .quiet (by simp)
  | cons a sections =>
    rw [List.map_eq_flatMap]
    exact .before (.quiet (by simp [textElement, element, Token.IsQuiet, quietTags]))
      (.flatMap fun a _ => a.shows_lines)

/-- The sections of a page, one after another. -/
theorem Document.page_eq (d : Document) :
    d.page = d.head ++ ([⟨0, [.start "body" []]⟩, ⟨2, textElement "h1" d.title⟩]
      ++ (paragraphLine 2 d.description
      ++ ([⟨2, textElement "h2" "Overview"⟩, ⟨2, textElement "p" d.overview⟩]
      ++ (d.contents ++ ([sectionHeading "tables" "Tables"]
      ++ (d.tables.flatMap TableFacts.lines
      ++ (([sectionHeading "relationships" "Relationships", blockStart "table-container"]
        ++ ((relationshipGrid d.relationships).lines ++ ([blockEnd]
        ++ if d.attributeSections.isEmpty then [] else
          [⟨2, textElement "h3" "Relationship Attributes"⟩]
            ++ d.attributeSections.flatMap AttributeSection.lines)))
      ++ (d.closing ++ [⟨0, [.stop "body"]⟩, ⟨0, [.stop "html"]⟩])))))))) := by
  simp [Document.page]

/-- A page shows the grids of its document. -/
theorem Document.shows_page (d : Document) : Shows d.page d.grids := by
  have htables := Shows.flatMap fun (t : TableFacts) (_ : t ∈ d.tables) => t.shows_lines
  have hrelationships := Shows.append (.grid (isRegular_relationshipGrid d.relationships))
    (.before shows_blockEnd (shows_attributeSections d.attributeSections))
  rw [d.page_eq]
  refine .before d.shows_head (.before (.quiet ?_) (.before (shows_paragraphLine _ _)
    (.before (.quiet ?_) (.before d.shows_contents (.before (.quiet ?_) (.append htables
      (.behind (.before (.quiet ?_) hrelationships) (.before d.shows_closing (.quiet ?_)))))))))
  all_goals simp [sectionHeading, blockStart, textElement, element, Token.IsQuiet, quietTags]

/-- The text of a page is that of its lines, each with its line feed. -/
theorem Document.toList_html (d : Document) :
    d.html.toList = d.page.flatMap MarkupLine.chars := by
  rw [Document.html]
  induction d.page with
  | nil => rfl
  | cons line lines ih =>
    rw [List.map_cons, List.cons_append, String.intercalate_cons_of_ne_nil (by simp),
      String.toList_append, ih, String.toList_append, List.flatMap_cons, MarkupLine.chars]
    rfl

/-- **The tables of a page** are the grids of its document, in their order. -/
theorem Document.readTables_html (d : Document) :
    readTables d.html.toList = d.grids.map Grid.texts := by
  have hread : (TableReader.mk [] [] [] none).read (d.page.flatMap MarkupLine.chars) =
      ⟨⟨d.grids.map Grid.texts, [], [], none⟩, none⟩ := d.shows_page []
  rw [readTables, d.toList_html, hread]

end Schemata.Docs
