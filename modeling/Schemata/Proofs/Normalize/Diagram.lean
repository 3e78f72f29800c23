import Schemata.Proofs.Diagram.Finding
import Schemata.Proofs.Normalize.Contract
import Schemata.Proofs.Normalize.Identifier

/-!
# Diagrams of normalized extractions

All names in a normalized extraction are plain, those of its tables as well as those of their
columns (`Extraction.hasPlainNames_normalize`). So its diagram says what the schema holds, unless
the name of a relationship, which is taken from the extraction as it is, breaks its line
(`statements_draw_normalize`).
-/

namespace Schemata

variable {t : Table}

namespace Normalize

/-- The columns of a table have plain names. -/
def HasPlainNames (t : Table) : Prop :=
  ∀ name, t.hasColumn name = true → Plain name

theorem hasPlainNames_iff : HasPlainNames t ↔ ∀ name ∈ t.columnNames, Plain name :=
  forall_congr' fun _ => by rw [Table.mem_columnNames]

end Normalize

open Normalize

namespace Extraction

variable (e : Extraction) (heading : Heading) (small : ℤ) (now : Moment)

/-- **The names of all columns are plain.** -/
theorem hasPlainNames_normalize :
    ∀ t ∈ (e.normalize heading small now).schema.tables, HasPlainNames t :=
  fun t ht name hname => ((e.guarded_normalize heading small now t ht).2 name hname).plain

/-- **A normalized extraction can be drawn.** -/
theorem drawable_normalize : Diagram.Drawable (e.normalize heading small now).schema where
  table t ht := by
    have hguarded := (e.guarded_normalize heading small now t ht).1
    exact ⟨hguarded.plain, hguarded.ne_empty⟩
  column t ht c hc := e.hasPlainNames_normalize heading small now t ht c.name
    (Table.hasColumn_iff.2 ⟨c, hc, rfl⟩)
  keyed := (closed_normalize e heading small now).tables.keyed
  joins := (closed_normalize e heading small now).joins

end Extraction

open Diagram in
/-- **The diagram of a normalized extraction.** It says a block for every table, in order, and then
what the lines of the relationships say. The block of a table shows every column once. There are as
many statements as there should be just if the names of the relationships are single lines, and then
each relationship is read as itself, with the names of the blocks of its tables as its ends. Two
blocks have one name just if a table is called like a reserved word and another one by the name that
the word is given. The findings of a diagram with blocks are about names of blocks that are
repeated, and about large numbers. -/
theorem statements_draw_normalize (e : Extraction) (heading : Heading) (small : ℤ)
    (now : Moment) :
    let s := (e.normalize heading small now).schema
    let singleLines := ∀ r ∈ s.relationships, ∀ c ∈ r.name.toList, Text.isLineBreak c = false
    let blocks := s.tables.map fun t => (entityName t.name).toList
    statements (draw s).toList = s.tables.flatMap blockOf ++
        s.relationships.flatMap (fun r => statements (relationshipLine r).toList) ∧
      (∀ t ∈ s.tables, (shownColumns t).Perm t.columns) ∧
      ((statements (draw s).toList).length =
        (s.tables.flatMap blockOf).length + s.relationships.length ↔ singleLines) ∧
      (singleLines → statements (draw s).toList =
        s.tables.flatMap blockOf ++ s.relationships.map fun r => .link (linkOf r)) ∧
      (∀ r ∈ s.relationships, (linkOf r).source = (entityName r.sourceTable).toList ∧
        (linkOf r).target = (entityName r.targetTable).toList ∧
        (linkOf r).source ∈ blocks ∧ (linkOf r).target ∈ blocks) ∧
      (blocks.Nodup ↔ ∀ word ∈ reservedWords,
        ¬(word ∈ s.tableNames ∧ word ++ "_entity" ∈ s.tableNames)) ∧
      (s.tables ≠ [] → singleLines → ∀ limits, findings (draw s) limits =
        repeatedEntities blocks ++ sizeFindings s.tables.length s.relationships.length limits) ∧
      (repeatedEntities blocks = [] ↔ blocks.Nodup) := by
  intro s singleLines blocks
  have h : Drawable s := e.drawable_normalize heading small now
  have hblocks : blocks = s.tableNames.map fun name => (entityName name).toList := by
    rw [Schema.tableNames, List.map_map]
    rfl
  have hline : ∀ r ∈ s.relationships,
      statements (relationshipLine r).toList = statements (sourceLine (.link (writtenLink r))) := by
    intro r hr
    obtain ⟨-, -, hsource, htarget⟩ := h.isName_ends hr
    rw [toList_relationshipLine hsource htarget]
  refine ⟨?_, fun t _ => perm_shownColumns t, h.length_statements_draw_iff,
    h.statements_draw_of_singleLine, fun r hr => ?_, ?_, fun hne hbreak => ?_,
    repeatedEntities_eq_nil⟩
  · rw [h.statements_draw, List.flatMap_congr hline]
  · obtain ⟨hsource, htarget⟩ := h.joins r hr
    rw [(ends_linkOf r).1, (ends_linkOf r).2, hblocks]
    exact ⟨rfl, rfl, List.mem_map_of_mem hsource, List.mem_map_of_mem htarget⟩
  · have hnodup : s.tableNames.Nodup := (closed_normalize e heading small now).tables.names
    have hinjective : Function.Injective String.toList := fun _ _ => String.toList_inj.1
    rw [hblocks, ← nodup_entityNames (e.isGuarded_normalize heading small now) hnodup,
      ← List.nodup_map_iff hinjective, List.map_map]
    rfl
  · exact h.findings_draw hne hbreak

/-- The diagram of books and their authors says a block for every table, and nothing is amiss. -/
theorem statements_draw_library :
    let s := (library.normalize {} 3 { year := 2024, month := 1, day := 1 }).schema
    Diagram.findings (Diagram.draw s) {} = [] ∧
      Diagram.statements (Diagram.draw s).toList = s.tables.flatMap Diagram.blockOf ++
        s.relationships.map fun r => .link (Diagram.linkOf r) := by
  intro s
  have ⟨hlength, hname, hapart⟩ : s.tables.length = 4 ∧
      (∀ r ∈ s.relationships, (r.name.toList.all fun c => !Text.isLineBreak c) = true) ∧
      ∀ word ∈ Diagram.reservedWords,
        ¬(word ∈ s.tableNames ∧ word ++ "_entity" ∈ s.tableNames) := by
    decide +kernel
  have hbreak : ∀ r ∈ s.relationships, ∀ c ∈ r.name.toList, Text.isLineBreak c = false :=
    fun r hr => Text.isLineBreak_of_all (hname r hr)
  have hne : s.tables ≠ [] := List.ne_nil_of_length_pos (by omega)
  obtain ⟨-, -, -, hsay, -, hnodup, hfindings, hrepeated⟩ :=
    statements_draw_normalize library {} 3 { year := 2024, month := 1, day := 1 }
  refine ⟨?_, hsay hbreak⟩
  have hlinks : s.relationships.length = 3 := by decide +kernel
  have hnone := hrepeated.2 (hnodup.2 hapart)
  rw [hfindings hne hbreak, hnone, hlength, hlinks]
  rfl

/-- Notes and tasks, the relationship between them named with a line feed at its end. -/
def chores : Extraction where
  entities := [{ name := some "Note" }, { name := some "Task" }]
  relationships :=
    [{ name := some "has\n", sourceEntity := some "Note", targetEntity := some "Task",
       type := some "one_to_many" }]

open Diagram in
/-- Not every diagram of a normalized extraction consists of blocks and of one line for each
relationship. -/
theorem not_statements_draw_chores :
    ¬∀ (e : Extraction) (heading : Heading) (small : ℤ) (now : Moment),
      let s := (e.normalize heading small now).schema
      ∃ links : List Link,
        statements (draw s).toList = s.tables.flatMap blockOf ++ links.map .link ∧
          List.Forall₂ (fun r l => l.source = (entityName r.sourceTable).toList ∧
            l.target = (entityName r.targetTable).toList) s.relationships links := by
  intro h
  obtain ⟨links, hsay, hlinks⟩ := h chores {} 3 { year := 2024, month := 1, day := 1 }
  have hbreak : ∃ r ∈ (chores.normalize {} 3
      { year := 2024, month := 1, day := 1 }).schema.relationships,
        r.name.toList.any Text.isLineBreak = true := by
    decide +kernel
  have hdrawable := chores.drawable_normalize {} 3 { year := 2024, month := 1, day := 1 }
  have hlength := congrArg List.length hsay
  rw [List.length_append, List.length_map, ← hlinks.length_eq] at hlength
  obtain ⟨r, hr, hany⟩ := hbreak
  obtain ⟨c, hc, hyes⟩ := List.any_eq_true.1 hany
  have hno := hdrawable.length_statements_draw_iff.1 hlength r hr c hc
  exact Bool.false_ne_true (hno.symm.trans hyes)

end Schemata
