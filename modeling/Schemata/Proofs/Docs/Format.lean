import Schemata.Proofs.Docs.Markdown
import Schemata.Proofs.Docs.Page

/-!
# Both formats state the same facts

The tables of a document can be read from its Markdown and from its page. In both cases they are the
grids of the document, the same in number and order, each with its headings and rows, cell by cell
(`Document.tables_agree`). What is lost in Markdown is the difference between line feeds and blanks.
-/

namespace Schemata.Docs

/-- **Both formats state the same facts.** The tables of the Markdown stand among its lines, one for
each grid; what is read from them is what is read from the tables of the page, with blanks for line
feeds; and the tables of the page are the grids with all their texts. -/
theorem Document.tables_agree (d : Document) :
    StandIn (d.grids.map Grid.markdownChars) (d.markdown.toList.splitOn '\n') ∧
      (d.grids.map Grid.markdownChars).map readTable =
        (readTables d.html.toList).map (·.map (·.map (·.map feedToBlank))) ∧
      readTables d.html.toList = d.grids.map Grid.texts := by
  refine ⟨d.standIn_markdown, ?_, d.readTables_html⟩
  rw [d.readTables_html, List.map_map, List.map_map]
  exact List.map_congr_left fun g hg => readTable_markdownChars (d.isRegular_of_mem_grids hg)

end Schemata.Docs
