import Schemata.Docs.Markdown

/-!
# The grids of a document

`Document.grids` lists the grids of a document in the order in which all formats show them, and
`Grid.texts` is what a grid states, whatever the format. The headings of the grids are fixed words,
and their rows have as many cells as there are headings (`Document.isRegular_of_mem_grids`).
-/

namespace Schemata.Docs

/-- What a grid states: the texts of its headings, and those of the cells of its rows. -/
def Grid.texts (g : Grid) : List (List (List Char)) :=
  g.headings.map (·.text.toList) :: g.rows.map fun row => row.map (·.plain.toList)

/-- The grids about a table: its columns, and its foreign keys if it has some. -/
def TableFacts.grids (t : TableFacts) : List Grid :=
  columnGrid t.columns :: if t.references.isEmpty then [] else [referenceGrid t.references]

/-- The grids of a document: those about its tables, the one about its relationships, and those about
the attributes of relationships. -/
def Document.grids (d : Document) : List Grid :=
  d.tables.flatMap TableFacts.grids
    ++ relationshipGrid d.relationships :: d.attributeSections.map fun a => attributeGrid a.rows

/-- The rows of a grid have a cell for each of its headings, and these are words that every format
can write as they are. -/
structure Grid.IsRegular (g : Grid) : Prop where
  /-- There are headings. -/
  headings_ne_nil : g.headings ≠ []
  /-- The headings have neither bars nor line feeds. -/
  notMem_heading : ∀ h ∈ g.headings, '|' ∉ h.text.toList ∧ '\n' ∉ h.text.toList
  /-- Every row has a cell for each heading. -/
  length_row : ∀ row ∈ g.rows, row.length = g.headings.length

variable {g : Grid}

theorem Grid.IsRegular.row_ne_nil (hg : g.IsRegular) {row : List Cell} (h : row ∈ g.rows) :
    row ≠ [] := by
  rintro rfl
  exact hg.headings_ne_nil (List.length_eq_zero_iff.1 (hg.length_row [] h).symm)

theorem isRegular_columnGrid (columns : List ColumnFacts) : (columnGrid columns).IsRegular where
  headings_ne_nil := by simp [columnGrid]
  notMem_heading := by simp only [columnGrid]; decide
  length_row := by simp [columnGrid]

theorem isRegular_referenceGrid (references : List ReferenceFacts) :
    (referenceGrid references).IsRegular where
  headings_ne_nil := by simp [referenceGrid]
  notMem_heading := by simp only [referenceGrid]; decide
  length_row := by simp [referenceGrid]

theorem isRegular_relationshipGrid (relationships : List RelationshipFacts) :
    (relationshipGrid relationships).IsRegular where
  headings_ne_nil := by simp [relationshipGrid]
  notMem_heading := by simp only [relationshipGrid]; decide
  length_row := by simp [relationshipGrid]

theorem isRegular_attributeGrid (rows : List AttributeFacts) : (attributeGrid rows).IsRegular where
  headings_ne_nil := by simp [attributeGrid]
  notMem_heading := by simp only [attributeGrid]; decide
  length_row := by simp [attributeGrid]

theorem TableFacts.isRegular_of_mem_grids {t : TableFacts} (h : g ∈ t.grids) : g.IsRegular := by
  rcases List.mem_cons.1 h with rfl | h
  · exact isRegular_columnGrid _
  · split at h
    · contradiction
    · rw [List.mem_singleton.1 h]
      exact isRegular_referenceGrid _

/-- All grids of a document are regular. -/
theorem Document.isRegular_of_mem_grids {d : Document} (h : g ∈ d.grids) : g.IsRegular := by
  rcases List.mem_append.1 h with h | h
  · obtain ⟨t, -, h⟩ := List.mem_flatMap.1 h
    exact TableFacts.isRegular_of_mem_grids h
  · rcases List.mem_cons.1 h with rfl | h
    · exact isRegular_relationshipGrid _
    · obtain ⟨a, -, rfl⟩ := List.mem_map.1 h
      exact isRegular_attributeGrid _

end Schemata.Docs
