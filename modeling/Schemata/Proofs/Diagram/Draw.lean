import Schemata.Diagram.Basic
import Schemata.Proofs.Diagram.Name
import Schemata.Proofs.Diagram.Statement
import Schemata.Proofs.Schema.Junction

/-!
# What a diagram of a schema says

The diagram of a schema is written as text and laid out by reading it again.
`Drawable.statements_draw` says what is read: a block for every table, with an attribute for each of
its columns, and what the lines of the relationships are read as. These are as many lines as there
are relationships just if the names of the relationships are single lines
(`Drawable.length_statements_draw_iff`).
-/

namespace Schemata.Diagram

open Text (isLineBreak)

/-! ## What there is to say -/

/-- How a column is marked. -/
def marksOf (c : Column) : List Mark :=
  if c.isPrimaryKey then [.primary] else if c.isForeignKey then [.foreign] else []

/-- The attribute for a column. -/
def attributeOf (c : Column) : Attribute where
  type := (coarseType c.dataType).toList
  name := (diagramName c.name).toList
  marks := marksOf c

/-- The columns of a table as a diagram shows them: the key, then references, then all others. -/
def shownColumns (t : Table) : List Column :=
  t.columns.filter (·.isPrimaryKey)
    ++ t.columns.filter (fun c => c.isForeignKey && !c.isPrimaryKey)
    ++ t.columns.filter fun c => !c.isPrimaryKey && !c.isForeignKey

/-- The block for a table. -/
def blockOf (t : Table) : List Content :=
  .entity (entityName t.name).toList
    :: ((shownColumns t).map fun c => .attribute (attributeOf c)) ++ [.close]

/-- The text that labels a relationship. -/
def labelText (r : Relationship) : List Char :=
  (orElse r.name "relates").toList.map fun c => if c = '"' then '\'' else c

/-- A relationship between tables, with a label. -/
def labelledLink (r : Relationship) (label : List Char) : Link where
  source := (entityName r.sourceTable).toList
  left := (symbols r).1
  right := (symbols r).2
  target := (entityName r.targetTable).toList
  label := label

/-- A relationship as it is written. -/
def writtenLink (r : Relationship) : Link :=
  labelledLink r (labelText r)

/-- A relationship as it is read. -/
def linkOf (r : Relationship) : Link :=
  (writtenLink r).settled

/-- The ends of a relationship as it is read are the names of the entities of its tables. -/
theorem ends_linkOf (r : Relationship) : (linkOf r).source = (entityName r.sourceTable).toList ∧
    (linkOf r).target = (entityName r.targetTable).toList := by
  constructor <;> simp only [linkOf, writtenLink, labelledLink, Link.settled]

/-- A schema whose names can be shown: those of tables and columns are plain, every table has a name
and a key, and relationships join tables. -/
structure Drawable (s : Schema) : Prop where
  table : ∀ t ∈ s.tables, Plain t.name ∧ t.name ≠ ""
  column : ∀ t ∈ s.tables, ∀ c ∈ t.columns, Plain c.name
  keyed : ∀ t ∈ s.tables, t.keyColumns ≠ []
  joins : ∀ r ∈ s.relationships, r.Joins s.tableNames

/-- Every column of a table is shown once. -/
theorem perm_shownColumns (t : Table) : (shownColumns t).Perm t.columns := by
  have hrest : (t.columns.filter (fun c => c.isForeignKey && !c.isPrimaryKey)
      ++ t.columns.filter fun c => !c.isPrimaryKey && !c.isForeignKey).Perm
        (t.columns.filter (!·.isPrimaryKey)) := by
    have hsplit := List.filter_append_perm (·.isForeignKey) (t.columns.filter (!·.isPrimaryKey))
    rw [List.filter_filter, List.filter_filter] at hsplit
    refine .trans (.of_eq ?_) hsplit
    congr 2
    funext c
    exact Bool.and_comm _ _
  rw [shownColumns, List.append_assoc]
  exact (hrest.append_left _).trans (List.filter_append_perm _ _)

/-! ## Attributes -/

/-- The coarse types are words of letters. -/
theorem coarseType_spec (type : String) :
    (∃ c, (coarseType type).toList.head? = some c ∧ (c.isAlpha || c == '_') = true) ∧
      ∀ c ∈ (coarseType type).toList, isTypeChar c = true := by
  have hword : ∀ word ∈ "string" :: coarseTypes.map Prod.fst,
      (word.toList.head?.any fun c => c.isAlpha || c == '_') = true ∧
        word.toList.all isTypeChar = true := by
    decide
  have hmem : coarseType type ∈ "string" :: coarseTypes.map Prod.fst := by
    unfold coarseType
    dsimp only
    split
    · rename_i coarse texts hfind
      exact List.mem_cons_of_mem _ (List.mem_map_of_mem (List.mem_of_find?_eq_some hfind))
    · exact List.mem_cons_self
  obtain ⟨hhead, hall⟩ := hword _ hmem
  exact ⟨by simpa [Option.any_eq_true] using hhead, List.all_eq_true.1 hall⟩

theorem isAttribute_attributeOf {c : Column} (h : Plain c.name) :
    IsAttribute (attributeOf c) := by
  obtain ⟨hhead, hchars⟩ := coarseType_spec c.dataType
  have hname : IsName (diagramName c.name).toList :=
    isName_diagramName_iff.2 (dotted_notMem_of_plain h)
  have hmarks : (marksOf c).eraseDups = marksOf c := by
    unfold marksOf
    split
    · rfl
    · split <;> rfl
  constructor <;> simp only [attributeOf]
  · exact hhead
  · exact hchars
  · exact hname
  · exact hmarks
  · simp

/-- The number of steps by which a line is indented in the source. -/
def depthOf : Content → ℕ
  | .attribute _ => 2
  | _ => 1

/-- The text of a line of the source. -/
def sourceLine (content : Content) : List Char :=
  indent (depthOf content) ++ content.render

/-- The line for a column, if the mark is the one of the column. -/
theorem toList_columnLine {c : Column} {mark : String}
    (h : mark.toList = renderMarks (marksOf c)) :
    (columnLine c mark).toList = sourceLine (.attribute (attributeOf c)) := by
  have hindent : "        ".toList = indent 2 := by decide
  have hempty : mark.isEmpty = (marksOf c).isEmpty := by
    rw [Bool.eq_iff_iff, String.isEmpty_iff, List.isEmpty_iff, ← String.toList_eq_nil_iff, h]
    unfold marksOf
    split
    · decide
    · split <;> decide
  unfold columnLine sourceLine
  dsimp only
  rw [hempty]
  split
  · simp [Content.render, Attribute.render, attributeOf, depthOf, *]
  · simp [Content.render, Attribute.render, attributeOf, depthOf, *]

/-- The lines for columns that are marked in one way. -/
theorem toList_columnLines (columns : List Column) (mark : String)
    (h : ∀ c ∈ columns, mark.toList = renderMarks (marksOf c)) :
    (columns.map (columnLine · mark)).map String.toList =
      (columns.map fun c => .attribute (attributeOf c)).map sourceLine := by
  rw [List.map_map, List.map_map]
  exact List.map_congr_left fun c hc => toList_columnLine (h c hc)

/-- The lines for a table with a key. -/
theorem toList_tableLines {t : Table} (h : t.keyColumns ≠ []) :
    (tableLines t).map String.toList = (blockOf t).map sourceLine := by
  have hkeys : (t.columns.filter (·.isPrimaryKey)).isEmpty = false :=
    List.isEmpty_eq_false_iff.2 h
  have hindent : "    ".toList = indent 1 := by decide
  have hprimary := toList_columnLines (t.columns.filter (·.isPrimaryKey)) "PK" fun c hc => by
    rw [marksOf, if_pos (List.mem_filter.1 hc).2]
    rfl
  have hforeign := toList_columnLines
    (t.columns.filter fun c => c.isForeignKey && !c.isPrimaryKey) "FK" fun c hc => by
      have hc : c.isForeignKey = true ∧ c.isPrimaryKey = false := by
        simpa using (List.mem_filter.1 hc).2
      rw [marksOf, hc.1, hc.2]
      rfl
  have hother := toList_columnLines
    (t.columns.filter fun c => !c.isPrimaryKey && !c.isForeignKey) "" fun c hc => by
      have hc : c.isPrimaryKey = false ∧ c.isForeignKey = false := by
        simpa using (List.mem_filter.1 hc).2
      rw [marksOf, hc.1, hc.2]
      rfl
  unfold tableLines blockOf shownColumns
  dsimp only
  rw [hkeys, if_neg (by simp), List.append_nil]
  simp only [List.map_append, List.map_cons, List.map_nil, List.cons_append, List.nil_append,
    hprimary, hforeign, hother]
  simp [sourceLine, depthOf, Content.render, ← hindent]

/-- The line for a relationship between tables. -/
theorem toList_relationshipLine {r : Relationship} (hsource : r.sourceTable ≠ "")
    (htarget : r.targetTable ≠ "") :
    (relationshipLine r).toList = sourceLine (.link (writtenLink r)) := by
  have hindent : "    ".toList = indent 1 := by decide
  unfold relationshipLine
  simp [sourceLine, depthOf, Content.render, orElse, hsource, htarget, writtenLink, labelledLink,
    Link.render, labelText, ← hindent]

/-! ## Reading the source -/

theorem isLineBreak_sourceLine {content : Content}
    (h : ∀ c ∈ content.render, isLineBreak c = false) :
    ∀ c ∈ sourceLine content, isLineBreak c = false := by
  intro c hc
  rcases List.mem_append.1 hc with hc | hc
  · rw [List.eq_of_mem_replicate hc]
    decide
  · exact h c hc

/-- A line of the source is read as its statement is, without the blanks in front. -/
theorem statements_sourceLine {content other : Content}
    (hcut : cut content.render = [content.render]) (hof : Content.of content.render = other)
    (hbreak : ∀ c ∈ content.render, isLineBreak c = false) (hlayout : other.isLayout = false) :
    statements (sourceLine content) = [other] := by
  have hblank : ∀ c ∈ indent (depthOf content), Text.isBlank c = true := by
    intro c hc
    rw [List.eq_of_mem_replicate hc]
    decide
  rw [statements_line (isLineBreak_sourceLine hbreak), sourceLine, cut_append hblank, hcut,
    List.map_singleton, hof, List.filter_cons_of_pos (by simp [hlayout]), List.filter_nil]

/-- The lines of a block are read as the block says. -/
theorem isStable_of_mem_blockOf {t : Table} (htable : Plain t.name)
    (hcolumns : ∀ c ∈ t.columns, Plain c.name) {content : Content} (h : content ∈ blockOf t) :
    IsStable content ∧ content.isLayout = false := by
  have hname : IsName (entityName t.name).toList :=
    isName_entityName_iff.2 (dotted_notMem_of_plain htable)
  rcases List.mem_cons.1 h with rfl | h
  · exact ⟨⟨cut_render_entity hname, of_render_entity hname, isLineBreak_render_entity hname⟩, rfl⟩
  · rcases List.mem_append.1 h with h | h
    · obtain ⟨c, hc, rfl⟩ := List.mem_map.1 h
      have hattribute : IsAttribute (attributeOf c) :=
        isAttribute_attributeOf (hcolumns c ((perm_shownColumns t).mem_iff.1 hc))
      exact ⟨⟨cut_render_attribute hattribute, of_render_attribute hattribute,
        isLineBreak_render hattribute⟩, rfl⟩
    · obtain rfl := List.mem_singleton.1 h
      exact ⟨⟨by decide, by decide, Text.eq_false_of_any (by decide)⟩, rfl⟩

/-! ## Relationships -/

/-- If nothing is empty, as many elements as parts there are tell that each part has one. -/
theorem length_eq_one_of_flatMap {α β : Type} {f : α → List β} {as : List α}
    (hpositive : ∀ a ∈ as, 1 ≤ (f a).length) (h : (as.flatMap f).length = as.length) :
    ∀ a ∈ as, (f a).length = 1 := by
  have hle : ∀ bs : List α, (∀ b ∈ bs, 1 ≤ (f b).length) → bs.length ≤ (bs.flatMap f).length := by
    intro bs hbs
    induction bs with
    | nil => simp
    | cons b bs ih =>
      have hfirst := hbs b (by simp)
      have hrest := ih fun b' hb' => hbs b' (by simp [hb'])
      simp only [List.flatMap_cons, List.length_append, List.length_cons]
      omega
  induction as with
  | nil => simp
  | cons a as ih =>
    have hfirst := hpositive a (by simp)
    have hpositive' : ∀ b ∈ as, 1 ≤ (f b).length := fun b hb => hpositive b (by simp [hb])
    have hrest := hle as hpositive'
    simp only [List.flatMap_cons, List.length_append, List.length_cons] at h
    intro b hb
    rcases List.mem_cons.1 hb with rfl | hb
    · omega
    · exact ih hpositive' (by omega) b hb

theorem quote_notMem_labelText (r : Relationship) : '"' ∉ labelText r := by
  intro h
  obtain ⟨c, -, hc⟩ := List.mem_map.1 h
  split at hc
  · exact absurd hc (by decide)
  · contradiction

/-- A label is a single line just if the name is. -/
theorem isLineBreak_labelText (r : Relationship) : (∀ c ∈ labelText r, isLineBreak c = false) ↔
    ∀ c ∈ r.name.toList, isLineBreak c = false := by
  have hmap : ∀ s : List Char,
      (∀ c ∈ s.map fun c => if c = '"' then '\'' else c, isLineBreak c = false) ↔
        ∀ c ∈ s, isLineBreak c = false := by
    intro s
    rw [List.forall_mem_map]
    refine forall_congr' fun c => imp_congr_right fun _ => ?_
    by_cases hc : c = '"'
    · subst hc
      decide
    · rw [if_neg hc]
  rw [labelText, hmap, orElse]
  split
  · rename_i hempty
    rw [String.isEmpty_iff] at hempty
    rw [hempty]
    exact iff_of_true (Text.isLineBreak_of_all (by decide)) (Text.isLineBreak_of_all (by decide))
  · rfl

/-- The text of a relationship up to the quotation mark in front of its label. -/
def Link.opening (l : Link) : List Char :=
  l.source ++ ' ' :: l.left.chars ++ (if l.identifying then ['-', '-'] else ['.', '.'])
    ++ l.right.chars ++ ' ' :: l.target ++ [' ', ':', ' ', '"']

theorem Link.render_eq_opening (l : Link) : l.render = l.opening ++ l.label ++ ['"'] :=
  rfl

@[simp] theorem labelledLink_label (r : Relationship) (label : List Char) :
    (labelledLink r label).label = label := by
  rw [labelledLink]

theorem opening_labelledLink (r : Relationship) (label label' : List Char) :
    (labelledLink r label).opening = (labelledLink r label').opening := by
  simp only [Link.opening, labelledLink]

section RelationshipLine

variable {r : Relationship} (hsource : IsName (entityName r.sourceTable).toList)
  (htarget : IsName (entityName r.targetTable).toList)

include hsource htarget

/-- A relationship can be written with every label that is a single line. -/
theorem isWritable_labelledLink {label : List Char} (hquote : '"' ∉ label)
    (hbreak : ∀ c ∈ label, isLineBreak c = false) : IsWritable (labelledLink r label) := by
  constructor <;> simp only [labelledLink]
  · exact hsource
  · exact htarget
  · exact hquote
  · exact hbreak

/-- The line for a relationship whose label is a single line. -/
theorem statements_link (h : ∀ c ∈ labelText r, isLineBreak c = false) :
    statements (sourceLine (.link (writtenLink r))) = [.link (linkOf r)] := by
  have hwritable : IsWritable (writtenLink r) :=
    isWritable_labelledLink hsource htarget (quote_notMem_labelText r) h
  exact statements_sourceLine (cut_render_link hwritable) (of_render_link hwritable)
    (isLineBreak_render_link hwritable) rfl

/-- The line for a relationship whose label is not a single line is read as more than one. -/
theorem two_le_length_statements_link (h : ¬∀ c ∈ labelText r, isLineBreak c = false) :
    2 ≤ (statements (sourceLine (.link (writtenLink r)))).length := by
  obtain ⟨d, hfind⟩ : ∃ d, (labelText r).find? isLineBreak = some d := by
    rw [← Option.isSome_iff_exists, List.find?_isSome]
    simpa using h
  obtain ⟨hd, before, behind, hsplit, hbefore⟩ := List.find?_eq_some_iff_append.1 hfind
  have hbefore : ∀ c ∈ before, isLineBreak c = false := fun c hc => by simpa using hbefore c hc
  have hquote : '"' ∉ before := fun hmem =>
    quote_notMem_labelText r (hsplit ▸ List.mem_append_left _ hmem)
  have hopening : ∀ c ∈ (writtenLink r).opening ++ before, isLineBreak c = false := by
    intro c hc
    refine isLineBreak_render_link (isWritable_labelledLink hsource htarget hquote hbefore) c ?_
    rw [Link.render_eq_opening, labelledLink_label, opening_labelledLink r before (labelText r)]
    exact List.mem_append_left _ hc
  have hline : sourceLine (.link (writtenLink r)) =
      (indent 1 ++ ((writtenLink r).opening ++ before)) ++ d :: (behind ++ ['"']) := by
    rw [sourceLine, Content.render, Link.render_eq_opening, writtenLink, labelledLink_label, hsplit]
    simp [depthOf]
  rw [hline]
  refine two_le_length_statements (fun c hc => ?_) hd ?_ (by simp)
  · rcases List.mem_append.1 hc with hc | hc
    · rw [List.eq_of_mem_replicate hc]
      decide
    · exact hopening c hc
  · simp [Link.opening]

/-- **The line for a relationship** is read as the relationship just if the name of the relationship
is a single line, and otherwise as more than one statement. -/
theorem length_statements_link : 1 ≤ (statements (sourceLine (.link (writtenLink r)))).length ∧
    ((statements (sourceLine (.link (writtenLink r)))).length = 1 ↔
      ∀ c ∈ r.name.toList, isLineBreak c = false) := by
  rw [← isLineBreak_labelText]
  by_cases h : ∀ c ∈ labelText r, isLineBreak c = false
  · rw [statements_link hsource htarget h]
    exact ⟨le_refl 1, iff_of_true rfl h⟩
  · have htwo := two_le_length_statements_link hsource htarget h
    exact ⟨by omega, iff_of_false (by omega) h⟩

end RelationshipLine

/-! ## Diagrams -/

/-- A line that is not empty and does not end with a break. -/
def EndsPlainly (line : List Char) : Prop :=
  ∃ c, line.getLast? = some c ∧ isLineBreak c = false

theorem EndsPlainly.append {line : List Char} (h : EndsPlainly line) (start : List Char) :
    EndsPlainly (start ++ line) := by
  obtain ⟨c, hc, hbreak⟩ := h
  exact ⟨c, by rw [List.getLast?_append, hc, Option.some_or], hbreak⟩

theorem EndsPlainly.of_forall {line : List Char} (hne : line ≠ [])
    (h : ∀ c ∈ line, isLineBreak c = false) : EndsPlainly line := by
  obtain ⟨c, hc⟩ := Option.isSome_iff_exists.1 (List.getLast?_isSome.2 hne)
  exact ⟨c, hc, h c (List.mem_of_getLast? hc)⟩

theorem endsPlainly_columnLine (c : Column) {mark : String} (hmark : mark ∈ ["PK", "FK", ""]) :
    EndsPlainly (columnLine c mark).toList := by
  have hname : EndsPlainly (diagramName c.name).toList := by
    refine .of_forall (by simpa using diagramName_ne_empty c.name) fun d hd => ?_
    rcases (mem_diagramName hd).2 with hword | rfl
    · exact Text.isLineBreak_of_isBlank_eq_false (Text.isBlank_of_isWord hword)
    · decide
  have hmarks : ∀ mark ∈ ["PK", "FK", ""], mark.isEmpty = false →
      mark.toList ≠ [] ∧ mark.toList.any isLineBreak = false := by
    decide
  unfold columnLine
  dsimp only
  split
  · rw [String.toList_append]
    exact hname.append _
  · rename_i hne
    obtain ⟨hne, hbreak⟩ := hmarks mark hmark (by simpa using hne)
    rw [String.toList_append]
    exact (EndsPlainly.of_forall hne (Text.eq_false_of_any hbreak)).append _

theorem endsPlainly_tableLines {t : Table} {line : String} (h : line ∈ tableLines t) :
    EndsPlainly line.toList := by
  have hopening : EndsPlainly " \x7b".toList := ⟨'\x7b', by decide, by decide⟩
  have hkey : EndsPlainly "        number id PK".toList := ⟨'K', by decide, by decide⟩
  have hclosing : EndsPlainly "    \x7d".toList := ⟨'\x7d', by decide, by decide⟩
  unfold tableLines at h
  simp only [List.mem_append, List.mem_singleton, List.mem_map] at h
  rcases h with ((((rfl | h) | ⟨c, -, rfl⟩) | ⟨c, -, rfl⟩) | ⟨c, -, rfl⟩) | rfl
  · rw [String.toList_append]
    exact hopening.append _
  · split at h
    · rwa [List.mem_singleton.1 h]
    · contradiction
  · exact endsPlainly_columnLine c (by simp)
  · exact endsPlainly_columnLine c (by simp)
  · exact endsPlainly_columnLine c (by simp)
  · exact hclosing

theorem endsPlainly_relationshipLine (r : Relationship) :
    EndsPlainly (relationshipLine r).toList := by
  have hquote : EndsPlainly "\"".toList := ⟨'"', by decide, by decide⟩
  unfold relationshipLine
  dsimp only
  rw [String.toList_append]
  exact hquote.append _

/-- **A diagram says what the lines of its source say**, one after the other. -/
theorem statements_draw_eq (s : Schema) : statements (draw s).toList =
    (s.tables.flatMap fun t => (tableLines t).flatMap fun line => statements line.toList) ++
      s.relationships.flatMap fun r => statements (relationshipLine r).toList := by
  have hends : ∀ line ∈ ["erDiagram"] ++ s.tables.flatMap tableLines
      ++ s.relationships.map relationshipLine, EndsPlainly line.toList := by
    intro line hline
    simp only [List.mem_append, List.mem_singleton, List.mem_flatMap, List.mem_map] at hline
    rcases hline with (rfl | ⟨t, -, hline⟩) | ⟨r, -, rfl⟩
    · exact ⟨'m', by decide, by decide⟩
    · exact endsPlainly_tableLines hline
    · exact endsPlainly_relationshipLine r
  have hlast : ∀ line ∈ (["erDiagram"] ++ s.tables.flatMap tableLines
      ++ s.relationships.map relationshipLine).map String.toList,
      line ≠ [] ∧ ∀ c ∈ line.getLast?, isLineBreak c = false := by
    rw [List.forall_mem_map]
    intro line hline
    obtain ⟨c, hc, hbreak⟩ := hends line hline
    refine ⟨fun hnil => by simp [hnil] at hc, fun d hd => ?_⟩
    rw [hc, Option.mem_some_iff] at hd
    exact hd ▸ hbreak
  have hheader : statements "erDiagram".toList = [] := by decide
  rw [draw, format, String.toList_ofList, statements_formatChars, String.toList_intercalate]
  refine (statements_intercalate hlast).trans ?_
  simp only [List.map_append, List.flatMap_append, List.map_singleton, List.flatMap_singleton,
    hheader, List.nil_append, List.map_flatMap, List.flatMap_assoc, List.flatMap_map]

namespace Drawable

variable {s : Schema}

theorem isName_ends (h : Drawable s) {r : Relationship} (hr : r ∈ s.relationships) :
    IsName (entityName r.sourceTable).toList ∧ IsName (entityName r.targetTable).toList ∧
      r.sourceTable ≠ "" ∧ r.targetTable ≠ "" := by
  have hname : ∀ name ∈ s.tableNames, Plain name ∧ name ≠ "" := by
    intro name hmem
    obtain ⟨t, ht, rfl⟩ := List.mem_map.1 hmem
    exact h.table t ht
  obtain ⟨hsource, htarget⟩ := h.joins r hr
  have hshown : ∀ name ∈ s.tableNames, IsName (entityName name).toList := fun name hmem =>
    isName_entityName_iff.2 (dotted_notMem_of_plain (hname name hmem).1)
  exact ⟨hshown _ hsource, hshown _ htarget, (hname _ hsource).2, (hname _ htarget).2⟩

/-- **What a diagram of a schema is read as**: blocks for the tables, and then what the lines of the
relationships are read as. -/
theorem statements_draw (h : Drawable s) : statements (draw s).toList =
    s.tables.flatMap blockOf ++
      s.relationships.flatMap fun r => statements (sourceLine (.link (writtenLink r))) := by
  have hblock : ∀ t ∈ s.tables, ∀ content ∈ blockOf t,
      IsStable content ∧ content.isLayout = false := fun t ht content hmem =>
    isStable_of_mem_blockOf (h.table t ht).1 (h.column t ht) hmem
  have hlinks : ∀ r ∈ s.relationships,
      (relationshipLine r).toList = sourceLine (.link (writtenLink r)) := fun r hr =>
    toList_relationshipLine (h.isName_ends hr).2.2.1 (h.isName_ends hr).2.2.2
  have hblocks : ∀ t ∈ s.tables,
      ((tableLines t).flatMap fun line => statements line.toList) = blockOf t := by
    intro t ht
    have hone : ∀ content ∈ blockOf t, statements (sourceLine content) = [content] := by
      intro content hmem
      obtain ⟨hstable, hlayout⟩ := hblock t ht content hmem
      exact statements_sourceLine hstable.cut hstable.of hstable.isLineBreak hlayout
    rw [← List.flatMap_map, toList_tableLines (h.keyed t ht), List.flatMap_map,
      List.flatMap_congr hone, List.flatMap_singleton']
  rw [statements_draw_eq, List.flatMap_congr hblocks]
  exact congrArg _ (List.flatMap_congr fun r hr => congrArg statements (hlinks r hr))

/-- The relationships of a schema whose names are single lines. -/
theorem statements_draw_of_singleLine (h : Drawable s)
    (hbreak : ∀ r ∈ s.relationships, ∀ c ∈ r.name.toList, isLineBreak c = false) :
    statements (draw s).toList =
      s.tables.flatMap blockOf ++ s.relationships.map fun r => .link (linkOf r) := by
  rw [h.statements_draw, List.map_eq_flatMap]
  refine congrArg _ (List.flatMap_congr fun r hr => ?_)
  refine statements_link (h.isName_ends hr).1 (h.isName_ends hr).2.1 ?_
  exact (isLineBreak_labelText r).2 (hbreak r hr)

/-- **A diagram says one thing for each column and relationship**, besides the two lines around
every block, just if the names of the relationships are single lines. -/
theorem length_statements_draw_iff (h : Drawable s) :
    (statements (draw s).toList).length =
        (s.tables.flatMap blockOf).length + s.relationships.length ↔
      ∀ r ∈ s.relationships, ∀ c ∈ r.name.toList, isLineBreak c = false := by
  constructor
  · intro hlength r hr
    have hline : ∀ r ∈ s.relationships, _ := fun r hr =>
      length_statements_link (h.isName_ends hr).1 (h.isName_ends hr).2.1
    rw [h.statements_draw, List.length_append, Nat.add_left_cancel_iff] at hlength
    have hone := length_eq_one_of_flatMap (fun r hr => (hline r hr).1) hlength
    exact (hline r hr).2.1 (hone r hr)
  · intro hbreak
    rw [h.statements_draw_of_singleLine hbreak, List.length_append, List.length_map]

end Drawable

end Schemata.Diagram
