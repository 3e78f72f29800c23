import Schemata.Proofs.Diagram.Draw

/-!
# Openings of entities in diagrams

The block for a table opens with the name that the diagram shows for it. This line is read as the
opening of an entity of this name just if the table has no capital dotted I in its own name
(`readLine_opening`). Otherwise it is no line of a diagram at all, since the name has a combining
dot in it, which ends a word.
-/

namespace Schemata.Diagram

open Text (isWord isBlank isLineBreak ne_of_class)

variable {s : List Char} {label : String} {t : Table}

theorem toList_opening (label : String) :
    ("    " ++ entityName label ++ " \x7b").toList =
      indent 1 ++ ((entityName label).toList ++ [' ', '\x7b']) := by
  have hindent : "    ".toList = indent 1 := by decide
  simp [← hindent]

/-! ## Names with a combining dot -/

/-- A line that would open an entity is read as nothing if a combining dot is in the name. -/
theorem of_opening_of_dot_mem (hchars : ∀ c ∈ s, isWord c = true ∨ c = '\u0307')
    (hdot : '\u0307' ∈ s) : Content.of (s ++ [' ', '\x7b']) = .unknown (s ++ [' ', '\x7b']) := by
  have hbraces : hasBraces (s ++ [' ', '\x7b']) = true := by
    rw [hasBraces_append (by decide), Bool.or_eq_true]
    exact .inr (by decide)
  have hattribute : readAttribute (s ++ [' ', '\x7b']) = none := by
    rw [readAttribute, if_pos hbraces]
  have hhead : ∀ c ∈ (s ++ [' ', '\x7b']).head?, c ≠ '%' := by
    rintro c hc rfl
    rw [List.head?_append_of_ne_nil s (List.ne_nil_of_mem hdot)] at hc
    exact absurd (hchars '%' (List.mem_of_mem_head? hc)) (by decide)
  rw [Content.of_eq hhead (by simp), hattribute]
  -- the first word ends at the dot, where neither an opening brace nor a symbol stands
  obtain ⟨w, rest, rfl, hw⟩ := List.eq_append_cons_of_mem hdot
  have hword : ∀ c ∈ w, isWord c = true := fun c hc =>
    (hchars c (List.mem_append_left _ hc)).resolve_right fun heq => hw (heq ▸ hc)
  have hsplit : w ++ '\u0307' :: rest ++ [' ', '\x7b'] = w ++ '\u0307' :: (rest ++ [' ', '\x7b']) :=
    List.append_assoc _ _ _
  have hends : ∀ c ∈ ('\u0307' :: (rest ++ [' ', '\x7b'])).head?, isWord c = false := by
    rintro c hc
    obtain rfl : '\u0307' = c := Option.some.inj hc
    decide +kernel
  have hskip : skipBlanks ('\u0307' :: (rest ++ [' ', '\x7b'])) =
      '\u0307' :: (rest ++ [' ', '\x7b']) := skipBlanks_cons (by decide) _
  have hentity : readEntity (w ++ '\u0307' :: (rest ++ [' ', '\x7b'])) = none :=
    readEntity_eq_none hword hends (by simp [hskip])
  have hlink : readLink (w ++ '\u0307' :: (rest ++ [' ', '\x7b'])) = none :=
    readLink_eq_none hword hends (by rw [hskip]; rfl) rfl
  rw [hsplit, hentity, hlink]
  rfl

/-! ## Openings -/

/-- What the opening line for a name is read as. -/
def openingContent (label : String) : Content :=
  if 'İ' ∈ label.toList then .unknown ((entityName label).toList ++ [' ', '\x7b'])
  else .entity (entityName label).toList

theorem of_opening (label : String) :
    Content.of ((entityName label).toList ++ [' ', '\x7b']) = openingContent label := by
  unfold openingContent
  split
  · rename_i hdot
    exact of_opening_of_dot_mem (fun c hc => mem_entityName hc) (dot_mem_entityName_iff.2 hdot)
  · rename_i hdot
    exact of_render_entity (isName_entityName_iff.2 hdot)

theorem cut_opening_entityName (label : String) :
    cut ((entityName label).toList ++ [' ', '\x7b']) =
      [(entityName label).toList ++ [' ', '\x7b']] := by
  refine cut_opening (entityName_ne_nil label) fun c hc => ?_
  rcases mem_entityName hc with hword | rfl
  · exact ⟨Text.isBlank_of_isWord hword, ne_of_class hword (by decide),
      ne_of_class hword (by decide), ne_of_class hword (by decide)⟩
  · decide

/-- **The opening line for a table, read on its own.** -/
theorem readLine_opening (label : String) (number : ℕ) :
    readLine number ("    " ++ entityName label ++ " \x7b").toList =
      [⟨openingContent label, (entityName label).toList ++ [' ', '\x7b'], number⟩] := by
  have hblank : ∀ c ∈ indent 1, isBlank c = true := List.all_eq_true.1 (by decide)
  rw [readLine, toList_opening, cut_append hblank, cut_opening_entityName, List.map_singleton,
    of_opening]

/-- A name that is read as that of an entity is a name. -/
theorem isName_of_entity_mem {source name : List Char} (h : .entity name ∈ statements source) :
    IsName name := by
  have hof : ∀ piece, Content.of piece = .entity name → IsName name := by
    intro piece hpiece
    unfold Content.of at hpiece
    split_ifs at hpiece
    split at hpiece
    · rename_i read hread
      exact Content.entity.inj hpiece ▸ readEntity_spec hread
    · split at hpiece
      · contradiction
      · split at hpiece <;> contradiction
  obtain ⟨hmem, -⟩ := List.mem_filter.1 h
  rw [contents_eq] at hmem
  obtain ⟨line, -, hmem⟩ := List.mem_flatMap.1 hmem
  obtain ⟨piece, -, hpiece⟩ := List.mem_map.1 hmem
  exact hof piece hpiece

theorem statements_opening (label : String) :
    statements ("    " ++ entityName label ++ " \x7b").toList = [openingContent label] := by
  have hbreak : ∀ c ∈ ("    " ++ entityName label ++ " \x7b").toList, isLineBreak c = false := by
    rw [toList_opening]
    simp only [List.forall_mem_append]
    refine ⟨Text.isLineBreak_of_all (by decide), fun c hc => ?_,
      Text.isLineBreak_of_all (by decide)⟩
    rcases mem_entityName hc with hword | rfl
    · exact Text.isLineBreak_of_isBlank_eq_false (Text.isBlank_of_isWord hword)
    · decide
  have hlayout : (openingContent label).isLayout = false := by
    unfold openingContent
    split <;> rfl
  have hblank : ∀ c ∈ indent 1, isBlank c = true := List.all_eq_true.1 (by decide)
  rw [statements_line hbreak, toList_opening, cut_append hblank, cut_opening_entityName,
    List.map_singleton, of_opening, List.filter_cons_of_pos (by simp [hlayout]), List.filter_nil]

/-- In the diagram of a schema, the entity for a table is there just if its name is a name. -/
theorem entity_mem_statements_draw_iff {s : Schema} (ht : t ∈ s.tables) :
    .entity (entityName t.name).toList ∈ statements (draw s).toList ↔ 'İ' ∉ t.name.toList := by
  rw [← isName_entityName_iff]
  refine ⟨isName_of_entity_mem, fun hname => ?_⟩
  have hopening : .entity (entityName t.name).toList ∈
      statements ("    " ++ entityName t.name ++ " \x7b").toList := by
    rw [statements_opening, openingContent, if_neg (isName_entityName_iff.1 hname)]
    exact List.mem_singleton_self _
  rw [statements_draw_eq]
  refine List.mem_append_left _ (List.mem_flatMap.2 ⟨t, ht, List.mem_flatMap.2 ⟨_, ?_, hopening⟩⟩)
  simp [tableLines]

/-- **Names in diagrams.** The name that a diagram shows for a label is never empty. It consists of
word characters, and is the name shown for itself, just if the label has no capital dotted I; the
name shown for it has both properties in any case. So the line that opens the block for a table is
read as the opening of an entity of the name shown for the table, alone and in the diagram of a
schema, just if the table has no capital dotted I in its name. -/
theorem names_shown (label : String) :
    (diagramName label ≠ "" ∧
      ((∀ c ∈ (diagramName label).toList, isWord c = true) ↔ 'İ' ∉ label.toList)) ∧
      (diagramName (diagramName label) = diagramName label ↔ 'İ' ∉ label.toList) ∧
      (IsName (diagramName (diagramName label)).toList ∧
        diagramName (diagramName (diagramName label)) = diagramName (diagramName label)) ∧
      ∀ (s : Schema) (t : Table), t ∈ s.tables → t.name = label →
        (∃ line ∈ (tableLines t).head?, ∀ number, readLine number line.toList =
          [⟨if 'İ' ∈ label.toList then .unknown ((entityName label).toList ++ [' ', '\x7b'])
            else .entity (entityName label).toList,
            (entityName label).toList ++ [' ', '\x7b'], number⟩]) ∧
          (.entity (entityName label).toList ∈ statements (draw s).toList ↔
            'İ' ∉ label.toList) := by
  have hne := diagramName_ne_empty label
  have hnot := dotted_notMem_diagramName label
  refine ⟨⟨hne, ?_⟩, diagramName_diagramName_iff, ?_, ?_⟩
  · rw [← isName_diagramName_iff]
    exact ⟨fun hword => ⟨by simpa using hne, hword⟩, IsName.isWord⟩
  · exact ⟨isName_diagramName_iff.2 hnot, diagramName_diagramName_iff.2 hnot⟩
  · rintro s t ht rfl
    exact ⟨⟨_, rfl, readLine_opening t.name⟩, entity_mem_statements_draw_iff ht⟩

/-- The sorts of goods on a market, and the provinces that they come from. -/
def market : Schema where
  tables := [{ name := "Ürün Çeşidi", columns := [.defaultKey] }, { name := "İl" }]
  createdAt := { year := 2024, month := 1, day := 1 }
  updatedAt := { year := 2024, month := 1, day := 1 }

theorem names_shown_market :
    .entity "ürün_çeşidi".toList ∈ statements (draw market).toList ∧
      .entity (entityName "İl").toList ∉ statements (draw market).toList := by
  obtain ⟨-, -, -, hgoods⟩ := names_shown "Ürün Çeşidi"
  obtain ⟨-, -, -, hprovince⟩ := names_shown "İl"
  have hname : entityName "Ürün Çeşidi" = "ürün_çeşidi" := by decide +kernel
  obtain ⟨-, hentity⟩ := hgoods market _ (List.mem_cons_self) rfl
  obtain ⟨-, hnone⟩ := hprovince market _ (List.mem_cons_of_mem _ List.mem_cons_self) rfl
  rw [hname] at hentity
  exact ⟨hentity.2 (by decide), fun hmem => hnone.1 hmem (by decide)⟩

/-- The name shown for a capital dotted I has a combining dot, which the name shown for that name
has not. -/
theorem not_names_shown_dotted :
    (diagramName "İ" = "i\u0307" ∧ diagramName "i\u0307" = "i") ∧
      ¬∀ label : String, IsName (diagramName label).toList ∧
        diagramName (diagramName label) = diagramName label := by
  have hname : diagramName "İ" = "i\u0307" := by decide +kernel
  have hagain : diagramName "i\u0307" = "i" := by decide +kernel
  refine ⟨⟨hname, hagain⟩, fun h => ?_⟩
  have heq := (h "İ").2
  rw [hname, hagain] at heq
  exact absurd heq (by decide)

end Schemata.Diagram
