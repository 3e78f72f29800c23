import Mathlib.Data.List.Basic
import Schemata.Proofs.Docs.Grid

/-!
# Tables in Markdown

`readTable` reads the lines of a table as a reader of Markdown does: bars end cells unless a
backslash stands right in front of them, a cell has a blank on each side, and a bar behind a
backslash stands for itself. No text can open or end a cell (`cutBars_escaped`), and what is read is
the text of the cell with blanks for its line feeds (`readTable_markdown`).

The tables stand between blank lines, in the order of the grids (`Document.standIn_markdown`).
-/

namespace Schemata.Docs

variable {s t : List Char} {cells : List String} {row : List Cell} {g : Grid}

/-! ## Reading tables -/

/-- The pieces of a line between its bars. A bar right behind a backslash does not end a piece; the
flag tells whether there is one in front of the line. -/
def cutBars (isEscaped : Bool) : List Char → List (List Char)
  | [] => [[]]
  | c :: s =>
    if c = '|' ∧ isEscaped = false then [] :: cutBars false s
    else (cutBars (c == '\\') s).modifyHead (c :: ·)

/-- A text without the blank in front of it, if there is one. -/
def dropBlank : List Char → List Char
  | ' ' :: s => s
  | s => s

/-- A text without a blank on each side. -/
def unpad (s : List Char) : List Char :=
  (dropBlank (dropBlank s).reverse).reverse

/-- A text with the bars that stand behind backslashes. -/
def unescapeBars : List Char → List Char
  | '\\' :: '|' :: s => '|' :: unescapeBars s
  | c :: s => c :: unescapeBars s
  | [] => []

/-- The cells of a line; there is nothing in front of its first bar and behind its last one. -/
def readRow (line : List Char) : List (List Char) :=
  (cutBars false line).tail.dropLast.map fun piece => unescapeBars (unpad piece)

/-- The rows of a table, the headings first. The line below the headings is no row. -/
def readTable : List (List Char) → List (List (List Char))
  | heading :: _ :: rows => (heading :: rows).map readRow
  | lines => lines.map readRow

/-- A line feed is read as a blank. -/
def feedToBlank (c : Char) : Char :=
  if c = '\n' then ' ' else c

/-! ## Cells -/

theorem escapeCellChar_cases (c : Char) :
    (c = '|' ∧ escapeCellChar c = ['\\', '|']) ∨ (c = '\n' ∧ escapeCellChar c = [' ']) ∨
      (c ≠ '|' ∧ c ≠ '\n' ∧ escapeCellChar c = [c]) := by
  unfold escapeCellChar
  split
  · next h => exact .inl ⟨h, rfl⟩
  · next hbar =>
    split
    · next h => exact .inr (.inl ⟨h, rfl⟩)
    · next hfeed => exact .inr (.inr ⟨hbar, hfeed, rfl⟩)

/-- **No text ends its cell**: its bars stand behind backslashes, and the blank behind it keeps a
backslash at its end away from the next bar. -/
theorem cutBars_escaped (isEscaped : Bool) (s t : List Char) :
    cutBars isEscaped (s.flatMap escapeCellChar ++ ' ' :: t) =
      (cutBars false t).modifyHead (s.flatMap escapeCellChar ++ ' ' :: ·) := by
  induction s generalizing isEscaped with
  | nil => simp [cutBars]
  | cons c s ih =>
    rw [List.flatMap_cons]
    rcases escapeCellChar_cases c with ⟨rfl, hc⟩ | ⟨rfl, hc⟩ | ⟨hbar, -, hc⟩ <;> rw [hc]
    · simp [cutBars, ih, Function.comp_def]
    · simp [cutBars, ih, Function.comp_def]
    · simp [cutBars, hbar, ih, Function.comp_def]

theorem head?_escaped (s : List Char) : (s.flatMap escapeCellChar).head? ≠ some '|' := by
  cases s with
  | nil => simp
  | cons c s =>
    rcases escapeCellChar_cases c with ⟨rfl, hc⟩ | ⟨rfl, hc⟩ | ⟨hbar, -, hc⟩ <;> simp_all

theorem unescapeBars_cons {c : Char} (h : c = '\\' → s.head? ≠ some '|') :
    unescapeBars (c :: s) = c :: unescapeBars s := by
  rw [unescapeBars]
  rintro t rfl rfl
  exact h rfl rfl

/-- Escaped bars are read back. -/
theorem unescapeBars_escaped (s : List Char) :
    unescapeBars (s.flatMap escapeCellChar) = s.map feedToBlank := by
  induction s with
  | nil => rfl
  | cons c s ih =>
    rw [List.flatMap_cons, List.map_cons, ← ih]
    rcases escapeCellChar_cases c with ⟨rfl, hc⟩ | ⟨rfl, hc⟩ | ⟨-, hfeed, hc⟩ <;> rw [hc]
    · rfl
    · exact unescapeBars_cons fun h => absurd h (by decide)
    · rw [feedToBlank, if_neg hfeed]
      exact unescapeBars_cons fun _ => head?_escaped s

theorem unpad_padded (s : List Char) : unpad (' ' :: (s ++ [' '])) = s := by
  simp [unpad, dropBlank]

/-! ## Rows -/

theorem intercalate_bar {pieces : List (List Char)} (h : pieces ≠ []) :
    ' ' :: ([' ', '|', ' '].intercalate pieces ++ [' ', '|']) =
      pieces.flatMap fun piece => ' ' :: (piece ++ [' ', '|']) := by
  induction pieces with
  | nil => contradiction
  | cons piece pieces ih =>
    cases pieces with
    | nil => simp
    | cons next pieces =>
      rw [List.intercalate_cons_cons, List.flatMap_cons, ← ih (by simp)]
      simp

/-- Cells between bars, character for character. -/
theorem toList_barred (h : cells ≠ []) :
    (barred cells).toList =
      '|' :: cells.flatMap fun cell => ' ' :: (cell.toList ++ [' ', '|']) := by
  rw [barred, String.toList_append, String.toList_append, String.toList_intercalate]
  refine congrArg (List.cons '|') ?_
  rw [← List.flatMap_map (f := String.toList) (g := fun cell => ' ' :: (cell ++ [' ', '|'])),
    ← intercalate_bar (by simpa using h)]
  rfl

theorem cutBars_row (texts : List (List Char)) :
    cutBars false (texts.flatMap fun s => ' ' :: (s.flatMap escapeCellChar ++ [' ', '|'])) =
      (texts.map fun s => ' ' :: (s.flatMap escapeCellChar ++ [' '])) ++ [[]] := by
  induction texts with
  | nil => rfl
  | cons s texts ih =>
    have hcut := cutBars_escaped false s
      ('|' :: texts.flatMap fun s => ' ' :: (s.flatMap escapeCellChar ++ [' ', '|']))
    rw [cutBars, if_pos ⟨rfl, rfl⟩, ih] at hcut
    simp [cutBars, hcut]

/-- **Cells are read back**, with blanks for line feeds. -/
theorem readRow_barred (h : row ≠ []) :
    readRow (barred (row.map (·.markdown))).toList =
      row.map fun cell => cell.plain.toList.map feedToBlank := by
  have hcut := cutBars_row (row.map (·.plain.toList))
  rw [List.flatMap_map, List.map_map] at hcut
  rw [toList_barred (by simpa using h), List.flatMap_map, readRow, cutBars, if_pos ⟨rfl, rfl⟩]
  simp only [Cell.markdown, String.toList_ofList]
  rw [hcut]
  simp [Function.comp_def, unpad_padded, unescapeBars_escaped]

example : readRow "| a\\|b | c\\ |".toList = ["a|b".toList, "c\\".toList] := by decide

/-- A row is one line if its cells are. -/
theorem notMem_barred (h : cells ≠ []) (hcells : ∀ cell ∈ cells, '\n' ∉ cell.toList) :
    '\n' ∉ (barred cells).toList := by
  rw [toList_barred h]
  simpa using hcells

/-! ## Tables -/

/-- The lines of a grid, character for character. -/
def Grid.markdownChars (g : Grid) : List (List Char) :=
  g.markdown.map String.toList

theorem notMem_markdown (cell : Cell) : '\n' ∉ cell.markdown.toList := by
  rw [Cell.markdown, String.toList_ofList, List.mem_flatMap]
  rintro ⟨c, -, h⟩
  rcases escapeCellChar_cases c with ⟨-, hc⟩ | ⟨-, hc⟩ | ⟨-, hfeed, hc⟩ <;> rw [hc] at h
  · revert h
    decide
  · revert h
    decide
  · exact hfeed (List.mem_singleton.1 h).symm

theorem notMem_rule (h : Heading) : '\n' ∉ h.rule.toList := by
  unfold Heading.rule
  split <;> simp [List.mem_replicate]

/-- A text without bars and line feeds is not changed in a cell. -/
theorem markdown_text {s : String} (hbar : '|' ∉ s.toList) (hfeed : '\n' ∉ s.toList) :
    (Cell.text s).markdown = s := by
  have hself : ∀ c ∈ s.toList, escapeCellChar c = [c] := by
    intro c hc
    rw [escapeCellChar, if_neg, if_neg]
    · rintro rfl
      exact hfeed hc
    · rintro rfl
      exact hbar hc
  rw [Cell.markdown, Cell.plain, List.flatMap_congr hself, List.flatMap_singleton', String.ofList_toList]

theorem Grid.IsRegular.map_text (hg : g.IsRegular) :
    g.headings.map (·.text) = (g.headings.map fun h => Cell.text h.text).map (·.markdown) := by
  rw [List.map_map]
  refine List.map_congr_left fun h hh => ?_
  have ⟨hbar, hfeed⟩ := hg.notMem_heading h hh
  exact (markdown_text hbar hfeed).symm

/-- Every row of a grid is one line. -/
theorem notMem_of_mem_markdownChars (hg : g.IsRegular) {line : List Char}
    (h : line ∈ g.markdownChars) : '\n' ∉ line := by
  obtain ⟨text, htext, rfl⟩ := List.mem_map.1 h
  rw [Grid.markdown, hg.map_text] at htext
  rcases List.mem_cons.1 htext with rfl | htext
  · exact notMem_barred (by simpa using hg.headings_ne_nil)
      (List.forall_mem_map.2 fun cell _ => notMem_markdown cell)
  rcases List.mem_cons.1 htext with rfl | htext
  · exact notMem_barred (by simpa using hg.headings_ne_nil)
      (List.forall_mem_map.2 fun h _ => notMem_rule h)
  · obtain ⟨row, hrow, rfl⟩ := List.mem_map.1 htext
    exact notMem_barred (by simpa using hg.row_ne_nil hrow)
      (List.forall_mem_map.2 fun cell _ => notMem_markdown cell)

/-- **What is read from the lines of a grid** is what the grid states, with blanks for line feeds. -/
theorem readTable_markdownChars (hg : g.IsRegular) :
    readTable g.markdownChars = g.texts.map (·.map (·.map feedToBlank)) := by
  rw [Grid.markdownChars, Grid.markdown, hg.map_text, List.map_cons, List.map_cons, readTable,
    List.map_cons, Grid.texts, List.map_cons, readRow_barred (by simpa using hg.headings_ne_nil),
    List.map_map, List.map_map, List.map_map, List.map_map, List.map_map]
  congr 1
  refine List.map_congr_left fun row hrow => ?_
  simp [readRow_barred (hg.row_ne_nil hrow)]

/-! ## Tables of a document -/

/-- The blocks stand among the lines, one behind another, each between empty lines. -/
def StandIn : List (List (List Char)) → List (List Char) → Prop
  | [], _ => True
  | block :: blocks, lines =>
    ∃ before after, lines = before ++ [] :: (block ++ [] :: after) ∧ StandIn blocks after

/-- The lines of texts that are written below each other. -/
def breakLines (texts : List String) : List (List Char) :=
  texts.flatMap fun text => text.toList.splitOn '\n'

theorem breakLines_append (texts more : List String) :
    breakLines (texts ++ more) = breakLines texts ++ breakLines more :=
  List.flatMap_append

theorem breakLines_markdown (hg : g.IsRegular) : breakLines g.markdown = g.markdownChars := by
  have hline : ∀ text ∈ g.markdown, text.toList.splitOn '\n' = [text.toList] := fun text htext =>
    List.splitOn_eq_singleton (notMem_of_mem_markdownChars hg (List.mem_map_of_mem htext))
  rw [breakLines, List.flatMap_congr hline, Grid.markdownChars, List.map_eq_flatMap]

theorem splitOn_intercalate_lines {texts : List String} (h : texts ≠ []) :
    (String.intercalate "\n" texts).toList.splitOn '\n' = breakLines texts := by
  rw [String.toList_intercalate]
  induction texts with
  | nil => contradiction
  | cons text texts ih =>
    cases texts with
    | nil => simp [breakLines]
    | cons next texts =>
      rw [List.map_cons, List.map_cons, List.intercalate_cons_cons, ← List.map_cons,
        List.append_assoc, breakLines, List.flatMap_cons, ← breakLines, ← ih (by simp)]
      exact List.splitOn_append_cons_self _ _

namespace StandIn

variable {blocks more : List (List (List Char))} {lines rest : List (List Char)}

theorem append_left (front : List (List Char)) (h : StandIn blocks lines) :
    StandIn blocks (front ++ lines) := by
  cases blocks with
  | nil => trivial
  | cons block blocks =>
    obtain ⟨before, after, rfl, hrest⟩ := h
    exact ⟨front ++ before, after, (List.append_assoc _ _ _).symm, hrest⟩

theorem append (h : StandIn blocks lines) (hmore : StandIn more rest) :
    StandIn (blocks ++ more) (lines ++ rest) := by
  induction blocks generalizing lines with
  | nil => exact hmore.append_left lines
  | cons block blocks ih =>
    obtain ⟨before, after, rfl, hafter⟩ := h
    exact ⟨before, after ++ rest, by simp, ih hafter⟩

theorem append_right (h : StandIn blocks lines) (back : List (List Char)) :
    StandIn blocks (lines ++ back) := by
  have hnone : StandIn [] back := trivial
  simpa using h.append hnone

/-- A grid between empty lines. -/
theorem grid (hg : g.IsRegular) (before after : List String)
    (h : StandIn blocks (breakLines after)) :
    StandIn (g.markdownChars :: blocks)
      (breakLines (before ++ "" :: (g.markdown ++ "" :: after))) := by
  refine ⟨breakLines before, breakLines after, ?_, h⟩
  have hempty : ∀ texts : List String, breakLines ("" :: texts) = [] :: breakLines texts :=
    fun _ => rfl
  rw [breakLines_append, hempty, breakLines_append, hempty, breakLines_markdown hg]

/-- The grids of one part after another. -/
theorem flatMap {α : Type} {grids : α → List Grid} {texts : α → List String} {parts : List α}
    (h : ∀ part ∈ parts,
      StandIn ((grids part).map Grid.markdownChars) (breakLines (texts part))) :
    StandIn ((parts.flatMap grids).map Grid.markdownChars) (breakLines (parts.flatMap texts)) := by
  induction parts with
  | nil => trivial
  | cons part parts ih =>
    rw [List.flatMap_cons, List.flatMap_cons, List.map_append, breakLines_append]
    exact (h part (by simp)).append (ih fun part hpart => h part (by simp [hpart]))

end StandIn

theorem TableFacts.standIn_markdown (t : TableFacts) :
    StandIn (t.grids.map Grid.markdownChars) (breakLines t.markdown) := by
  have hcolumns := isRegular_columnGrid t.columns
  have hreferences := isRegular_referenceGrid t.references
  have hfront : t.markdown = ([s!"### {t.name}", ""] ++ paragraph t.description
      ++ [s!"**Entity Type:** {t.entityType.label}{t.entityType.note}", "", "#### Columns"])
      ++ "" :: ((columnGrid t.columns).markdown ++ ((if t.references.isEmpty then []
        else ["", "#### Foreign Key References", ""] ++ (referenceGrid t.references).markdown)
      ++ [""])) := by
    simp [TableFacts.markdown]
  rw [hfront]
  unfold TableFacts.grids
  cases t.references.isEmpty with
  | true => exact .grid hcolumns _ [] trivial
  | false =>
    exact .grid hcolumns _ _ (.grid hreferences ["#### Foreign Key References"] [] trivial)

theorem standIn_attributeSections (sections : List AttributeSection) :
    StandIn ((sections.map fun a => attributeGrid a.rows).map Grid.markdownChars)
      (breakLines (sections.flatMap AttributeSection.markdown)) := by
  rw [List.map_eq_flatMap (f := fun a : AttributeSection => attributeGrid a.rows)]
  exact .flatMap fun a _ => .grid (isRegular_attributeGrid a.rows) ["#### " ++ a.title] [] trivial

/-- The grid about relationships, and those about their attributes if there are some. -/
theorem standIn_relationships (relationships : List RelationshipFacts)
    (sections : List AttributeSection) (rest : List String) :
    StandIn ((relationshipGrid relationships :: sections.map fun a => attributeGrid a.rows).map
        Grid.markdownChars)
      (breakLines (["## Relationships"] ++ "" :: ((relationshipGrid relationships).markdown
        ++ ((if sections.isEmpty then []
          else ["", "### Relationship Attributes", ""]
            ++ sections.flatMap AttributeSection.markdown) ++ "" :: rest)))) := by
  have hgrid := isRegular_relationshipGrid relationships
  cases sections with
  | nil => exact .grid hgrid _ rest trivial
  | cons a sections =>
    refine .grid hgrid _ (["### Relationship Attributes", ""]
      ++ ((a :: sections).flatMap AttributeSection.markdown ++ "" :: rest)) ?_
    rw [breakLines_append, breakLines_append]
    exact ((standIn_attributeSections _).append_right _).append_left _

/-- **The tables of a document in Markdown** stand among its lines, one for each grid and in their
order, each between empty lines. -/
theorem Document.standIn_markdown (d : Document) :
    StandIn (d.grids.map Grid.markdownChars) (d.markdown.toList.splitOn '\n') := by
  have hlines : d.markdownLines = (["# " ++ d.title, ""] ++ paragraph d.description
      ++ ["## Overview", "", d.overview, "", "## Table of Contents", ""]
      ++ d.markdownContents ++ ["", "## Tables", ""])
      ++ (d.tables.flatMap TableFacts.markdown
      ++ (["## Relationships"] ++ "" :: ((relationshipGrid d.relationships).markdown
      ++ ((if d.attributeSections.isEmpty then []
        else ["", "### Relationship Attributes", ""]
          ++ d.attributeSections.flatMap AttributeSection.markdown)
      ++ "" :: (["## ER Diagram", "", diagramIntroduction, ""]
        ++ diagramNotation.map (fun item => "- " ++ item)
        ++ ["", "## Notes", ""] ++ d.remarks.map (fun remark => "- " ++ remark) ++ [""]))))) := by
    simp [Document.markdownLines]
  have htables : StandIn ((d.tables.flatMap TableFacts.grids).map Grid.markdownChars)
      (breakLines (d.tables.flatMap TableFacts.markdown)) :=
    .flatMap fun t _ => t.standIn_markdown
  rw [Document.markdown, splitOn_intercalate_lines (by simp [Document.markdownLines]), hlines,
    Document.grids, List.map_append, breakLines_append _ (_ ++ _), breakLines_append (d.tables.flatMap _)]
  exact (htables.append (standIn_relationships _ _ _)).append_left _

end Schemata.Docs
