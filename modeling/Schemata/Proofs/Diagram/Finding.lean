import Schemata.Proofs.Diagram.Draw

/-!
# What is amiss in a diagram of blocks and relationships

The findings come from one pass over the lines (`survey`). A block leaves the pass as it was but for
its entity (`foldl_step_blockOf`), and a relationship behind the blocks is only taken down
(`foldl_step_links`). So in a diagram that says no more than this, nothing can be amiss but entities
of one name and large numbers (`findingsOf_eq`), provided that the relationships are between
entities.
-/

namespace Schemata.Diagram

variable {lines : List Line} {line : Line}

/-! ## Single lines -/

theorem Survey.step_entity (survey : Survey) {name : List Char}
    (h : line.content = .entity name) : survey.step line =
      { survey with
        entities := survey.entities ++ [name]
        openBlocks := (name, line.number) :: survey.openBlocks } := by
  rw [Survey.step, h]

/-- An attribute inside of a block changes nothing. -/
theorem Survey.step_attribute (survey : Survey) {a : Attribute}
    (h : line.content = .attribute a) (hopen : survey.openBlocks ≠ []) :
    survey.step line = survey := by
  obtain ⟨block, blocks, heq⟩ := List.exists_cons_of_ne_nil hopen
  rw [Survey.step, h, heq]

theorem Survey.step_close (survey : Survey) {block : List Char × ℕ}
    {blocks : List (List Char × ℕ)} (h : line.content = .close)
    (hopen : survey.openBlocks = block :: blocks) :
    survey.step line = { survey with openBlocks := blocks } := by
  rw [Survey.step, h, hopen]

theorem Survey.step_link (survey : Survey) {l : Link} (h : line.content = .link l)
    (hopen : survey.openBlocks = []) :
    survey.step line = { survey with links := survey.links ++ [l] } := by
  rw [Survey.step, h, hopen]

/-- A line that says nothing changes nothing. -/
theorem Survey.step_layout (survey : Survey) (h : line.content.isLayout = true) :
    survey.step line = survey := by
  cases hcontent : line.content with
  | header => rw [Survey.step, hcontent]
  | blank => rw [Survey.step, hcontent]
  | _ => rw [hcontent] at h; contradiction

/-! ## Blocks and relationships -/

/-- Only the statements matter for what is known of a diagram. -/
theorem foldl_step_filter (lines : List Line) (survey : Survey) :
    (lines.filter (!·.content.isLayout)).foldl Survey.step survey =
      lines.foldl Survey.step survey := by
  induction lines generalizing survey with
  | nil => rfl
  | cons line lines ih =>
    cases hlayout : line.content.isLayout with
    | true =>
      rw [List.filter_cons_of_neg (by simp [hlayout]), ih, List.foldl_cons,
        survey.step_layout hlayout]
    | false =>
      rw [List.filter_cons_of_pos (by simp [hlayout]), List.foldl_cons, ih, List.foldl_cons]

theorem foldl_step_attributes {attributes : List Attribute} {survey : Survey}
    (h : lines.map (·.content) = attributes.map .attribute) (hopen : survey.openBlocks ≠ []) :
    lines.foldl Survey.step survey = survey := by
  induction lines generalizing attributes with
  | nil => rfl
  | cons line lines ih =>
    cases attributes with
    | nil => contradiction
    | cons a attributes =>
      obtain ⟨hline, hlines⟩ := List.cons_eq_cons.1 h
      rw [List.foldl_cons, survey.step_attribute hline hopen, ih hlines]

/-- **A block is taken down as its entity**, and leaves nothing open. -/
theorem foldl_step_blockOf {t : Table} (h : lines.map (·.content) = blockOf t)
    (survey : Survey) : lines.foldl Survey.step survey =
      { survey with entities := survey.entities ++ [(entityName t.name).toList] } := by
  obtain ⟨front, last, rfl, hfront, hlast⟩ := List.map_eq_append_iff.1 h
  obtain ⟨opening, attributes, rfl, hopening, hattributes⟩ := List.map_eq_cons_iff.1 hfront
  obtain ⟨closing, rfl, hclosing⟩ := List.map_eq_singleton_iff.1 hlast
  have hattributes : attributes.map (·.content) =
      ((shownColumns t).map attributeOf).map .attribute := by
    rw [hattributes, List.map_map]
    rfl
  rw [List.cons_append, List.foldl_cons, survey.step_entity hopening, List.foldl_append,
    foldl_step_attributes hattributes (by simp), List.foldl_cons, List.foldl_nil,
    Survey.step_close _ hclosing rfl]

theorem foldl_step_blocks {tables : List Table}
    (h : lines.map (·.content) = tables.flatMap blockOf) (survey : Survey) :
    lines.foldl Survey.step survey =
      { survey with
        entities := survey.entities ++ tables.map fun t => (entityName t.name).toList } := by
  induction tables generalizing lines survey with
  | nil =>
    obtain rfl := List.map_eq_nil_iff.1 h
    rw [List.map_nil, List.append_nil, List.foldl_nil]
  | cons t tables ih =>
    obtain ⟨block, blocks, rfl, hblock, hblocks⟩ := List.map_eq_append_iff.1 h
    rw [List.foldl_append, foldl_step_blockOf hblock, ih hblocks, List.append_assoc,
      List.map_cons, List.singleton_append]

/-- Relationships outside of blocks are taken down. -/
theorem foldl_step_links {links : List Link} (h : lines.map (·.content) = links.map .link)
    {survey : Survey} (hopen : survey.openBlocks = []) :
    lines.foldl Survey.step survey = { survey with links := survey.links ++ links } := by
  induction lines generalizing links survey with
  | nil =>
    obtain rfl := List.map_eq_nil_iff.1 h.symm
    rw [List.append_nil, List.foldl_nil]
  | cons line lines ih =>
    cases links with
    | nil => contradiction
    | cons l links =>
      obtain ⟨hline, hlines⟩ := List.cons_eq_cons.1 h
      have hstep := survey.step_link hline hopen
      have hopen' : (survey.step line).openBlocks = [] := by
        rw [hstep]
        exact hopen
      rw [List.foldl_cons, ih hlines hopen', hstep, List.append_assoc, List.singleton_append]

/-- What is known of a diagram of blocks and relationships. -/
theorem survey_eq {source : List Char} {tables : List Table} {links : List Link}
    (h : statements source = tables.flatMap blockOf ++ links.map .link) :
    survey (readLines source) =
      { entities := tables.map fun t => (entityName t.name).toList, links := links } := by
  have hfilter : ((readLines source).filter (!·.content.isLayout)).map (·.content) =
      tables.flatMap blockOf ++ links.map .link := by
    rw [← h, statements, contents, List.filter_map]
    rfl
  obtain ⟨blocks, rest, hsplit, hblocks, hrest⟩ := List.map_eq_append_iff.1 hfilter
  rw [survey, ← foldl_step_filter, hsplit, List.foldl_append, foldl_step_blocks hblocks,
    foldl_step_links hrest rfl]
  rfl

/-! ## Findings -/

/-- Names are repeated just if they are not distinct. -/
theorem repeatedEntities_eq_nil {names : List (List Char)} :
    repeatedEntities names = [] ↔ names.Nodup := by
  rw [repeatedEntities, List.map_eq_nil_iff, List.filter_eq_nil_iff, List.nodup_iff_count_le_one]
  simp only [List.mem_eraseDups, decide_eq_true_eq, not_lt]
  refine forall_congr' fun name => ⟨fun h => ?_, fun h _ => h⟩
  by_cases hmem : name ∈ names
  · exact h hmem
  · rw [List.count_eq_zero_of_not_mem hmem]
    exact Nat.zero_le 1

theorem linkFindings_eq_nil {names : List (List Char)} {l : Link} (hsource : l.source ∈ names)
    (htarget : l.target ∈ names) : linkFindings (names.map Text.lower) l = [] := by
  have hend : ∀ name ∈ names, ∀ side,
      endFindings (names.map Text.lower) side (Text.lower name) = [] := by
    intro name hname side
    have hmem : (names.map Text.lower).contains (Text.lower name) = true :=
      List.contains_iff_mem.2 (List.mem_map_of_mem hname)
    rw [endFindings, hmem, Bool.true_or, if_pos rfl]
  rw [linkFindings, hend _ hsource, hend _ htarget, List.append_nil]

/-- **What can be amiss with an end of a relationship**: it is no entity, and what may have been
meant are some of the entities. -/
theorem endFindings_cases {names : List (List Char)} {side : String} {name : List Char}
    {f : Finding} (h : f ∈ endFindings names side name) :
    f = .undefinedEnd side (String.ofList name) ∨
      ∃ similar ⊆ names, similar ≠ [] ∧ f = .suggestion (similar.map String.ofList) := by
  unfold endFindings at h
  split at h
  · contradiction
  · refine (List.mem_cons.1 h).imp_right fun h => ?_
    split at h
    · contradiction
    · rename_i hne
      exact ⟨_, List.filter_subset_self _, by simpa using hne, List.mem_singleton.1 h⟩

/-- **What can be amiss in a diagram as a whole.** -/
theorem Survey.mem_conclude {survey : Survey} {limits : Limits} {f : Finding} :
    f ∈ survey.conclude limits ↔ f ∈ survey.findings ∨
      (∃ block ∈ survey.openBlocks, f = .unclosed (String.ofList block.1) block.2) ∨
      (∃ entity ∈ survey.entities, 1 < survey.entities.count entity ∧
        f = .repeatedEntity (String.ofList entity) (survey.entities.count entity)) ∨
      (limits.entities < survey.entities.length ∧ f = .manyEntities survey.entities.length) ∨
      (limits.links < survey.links.length ∧ f = .manyLinks survey.links.length) ∨
      ∃ l ∈ survey.links, f ∈ linkFindings (survey.entities.map Text.lower) l := by
  simp only [conclude, repeatedEntities, List.mem_append, List.mem_map, List.mem_reverse,
    List.mem_filter, List.mem_eraseDups, decide_eq_true_eq, List.mem_ite_nil_right,
    List.mem_singleton, List.mem_flatMap, or_assoc, and_assoc, eq_comm (a := f)]

/-- The findings about numbers that are large. -/
def sizeFindings (entities links : ℕ) (limits : Limits) : List Finding :=
  (if limits.entities < entities then [.manyEntities entities] else [])
    ++ if limits.links < links then [.manyLinks links] else []

/-- **What is amiss in a diagram of blocks and relationships between them**: entities of one name,
and large numbers. -/
theorem findingsOf_eq {source : List Char} {tables : List Table} {links : List Link}
    (h : statements source = tables.flatMap blockOf ++ links.map .link) (hne : tables ≠ [])
    (hends : ∀ l ∈ links, l.source ∈ tables.map (fun t => (entityName t.name).toList) ∧
      l.target ∈ tables.map fun t => (entityName t.name).toList) (limits : Limits) :
    findingsOf source limits =
      repeatedEntities (tables.map fun t => (entityName t.name).toList)
        ++ sizeFindings tables.length links.length limits := by
  have hformatted := (statements_formatChars source).trans h
  have hdefined : (readLines (formatChars source)).any (·.content.isDefinition) = true := by
    obtain ⟨t, rest, rfl⟩ := List.exists_cons_of_ne_nil hne
    have hmem : Content.entity (entityName t.name).toList ∈ statements (formatChars source) := by
      rw [hformatted]
      simp [blockOf]
    obtain ⟨line, hline, hcontent⟩ := List.mem_map.1 (List.mem_filter.1 hmem).1
    refine List.any_eq_true.2 ⟨line, hline, ?_⟩
    rw [hcontent]
    rfl
  have hlinks : links.flatMap (linkFindings
      ((tables.map fun t => (entityName t.name).toList).map Text.lower)) = [] := by
    refine List.flatMap_eq_nil_iff.2 fun l hl => ?_
    exact linkFindings_eq_nil (hends l hl).1 (hends l hl).2
  unfold findingsOf
  dsimp only
  rw [hdefined, if_pos rfl, survey_eq hformatted, Survey.conclude, hlinks]
  simp [sizeFindings]

/-- **What is amiss in the diagram of a schema** with tables and with single lines as the names of
its relationships. -/
theorem Drawable.findings_draw {s : Schema} (h : Drawable s) (hne : s.tables ≠ [])
    (hbreak : ∀ r ∈ s.relationships, ∀ c ∈ r.name.toList, Text.isLineBreak c = false)
    (limits : Limits) : findings (draw s) limits =
      repeatedEntities (s.tables.map fun t => (entityName t.name).toList)
        ++ sizeFindings s.tables.length s.relationships.length limits := by
  have hstatements : statements (draw s).toList =
      s.tables.flatMap blockOf ++ (s.relationships.map linkOf).map .link := by
    rw [h.statements_draw_of_singleLine hbreak, List.map_map]
    rfl
  rw [findings, findingsOf_eq hstatements hne ?_ limits, List.length_map]
  rw [List.forall_mem_map]
  intro r hr
  obtain ⟨hsource, htarget⟩ := h.joins r hr
  have hmem : ∀ name ∈ s.tableNames,
      (entityName name).toList ∈ s.tables.map fun t => (entityName t.name).toList := by
    intro name hname
    obtain ⟨t, ht, rfl⟩ := List.mem_map.1 hname
    exact List.mem_map.2 ⟨t, ht, rfl⟩
  rw [(ends_linkOf r).1, (ends_linkOf r).2]
  exact ⟨hmem _ hsource, hmem _ htarget⟩

end Schemata.Diagram
