import Mathlib.Data.List.Induction
import Schemata.Proofs.Normalize.Stage

/-!
# What is told of a normalization

Each stage tells its own decisions, and what is told by one has codes that no other stage uses
(`countP_diagnostics`). So what is left out can be counted where it is left out: attributes while
the columns of a table are collected (`count_columnsFor`), and relationships while they are placed
(`length_placeAll`).

The tables are built one after another, each in knowledge of the names before it. As these are
distinct, what is told of a table can be told from what is told of all (`buildTables_getElem?`).
-/

namespace Schemata

namespace Noted

variable {α σ : Type}

theorem fold_append_singleton (f : σ → α → Noted σ) (s : σ) (as : List α) (a : α) :
    (fold f s (as ++ [a])).value = (f (fold f s as).value a).value ∧
      (fold f s (as ++ [a])).notes = (fold f s as).notes ++ (f (fold f s as).value a).notes := by
  induction as generalizing s with
  | nil => exact ⟨rfl, List.append_nil _⟩
  | cons b as ih =>
    obtain ⟨hvalue, hnotes⟩ := ih (f s b).value
    refine ⟨hvalue, ?_⟩
    rw [List.cons_append, fold, fold]
    dsimp only
    rw [hnotes, List.append_assoc]

theorem mem_notes_fold {f : σ → α → Noted σ} {s : σ} {as : List α} {d : Diagnostic}
    (h : d ∈ (fold f s as).notes) : ∃ s', ∃ a ∈ as, d ∈ (f s' a).notes := by
  induction as generalizing s with
  | nil => contradiction
  | cons a as ih =>
    rw [fold] at h
    rcases List.mem_append.1 h with h | h
    · exact ⟨s, a, List.mem_cons_self, h⟩
    · obtain ⟨s', a', ha', hd⟩ := ih h
      exact ⟨s', a', List.mem_cons_of_mem _ ha', hd⟩

end Noted

namespace Normalize

variable {tables : List Table} {d : Diagnostic}

/-! ## The codes of the stages -/

/-- The codes of what is told while tables are built. -/
def buildCodes : List String :=
  ["UNNAMED_TABLE", "DUPLICATE_TABLE", "DEFAULT_COLUMNS", "UNNAMED_COLUMN", "DUPLICATE_COLUMN",
   "PK_ADDED", "PK_PROMOTED"]

/-- The codes of what is told while relationships are placed. -/
def placeCodes : List String :=
  ["REL_MISSING_ENDPOINT", "REL_UNRESOLVED", "REL_TYPE_DEFAULTED"]

/-- The codes of what is told by the other stages. -/
def otherCodes : List String :=
  ["FK_UNRESOLVED", "WEAK_ENTITY", "PARTIAL_KEY_ADDED", "FK_RETARGETED", "LOOKUP_DETECTED"]

/-- Where only some codes are told, what asks for another code finds nothing. -/
theorem countP_eq_zero_of_code {notes : List Diagnostic} {codes : List String}
    {p : Diagnostic → Bool} (hnotes : ∀ d ∈ notes, d.code ∈ codes)
    (hp : ∀ d : Diagnostic, d.code ∈ codes → p d = false) : notes.countP p = 0 :=
  List.countP_eq_zero.2 fun d hd => by simp [hp d (hnotes d hd)]

theorem notes_addColumn (table : String) (columns : List Column)
    (item : Extraction.Attribute × ℕ) : (addColumn table columns item).notes =
      (if item.1.column.name = unnamedColumn then [.unnamedColumn table item.2] else []) ++
        if columns.any (·.name == item.1.column.name) then
          [.droppedColumn table item.1.column.name] else [] := by
  unfold addColumn
  simp only [Noted.notes_bind, Noted.notes_noteIf, decide_eq_true_eq]
  congr 1
  split <;> rfl

theorem code_noteKeyChange (table : String) (change : Option Table.KeyChange) :
    ∀ d ∈ (noteKeyChange table change).notes,
      d.code ∈ buildCodes ∧ d.code ≠ "DUPLICATE_COLUMN" := by
  cases change with
  | none => simp [noteKeyChange]
  | some change => cases change <;> simp [noteKeyChange, Diagnostic.code, buildCodes]

/-- What is told while a table is built: about its name, about its columns and about its key. -/
theorem notes_buildTable (taken : List String) (entity : Extraction.Entity) (index : ℕ) :
    let wanted := tableName entity.name
    let name := uniqueName wanted taken
    ∃ change, (buildTable taken entity index).notes =
      (if wanted = unnamedTable then [.unnamedTable index] else []) ++
        ((if name ≠ wanted then [.renamedTable name wanted] else []) ++
          ((if entity.attributes.isEmpty then [.defaultColumns name]
            else (columnsFor name entity.attributes).notes) ++
              (noteKeyChange name change).notes)) := by
  intro wanted name
  unfold buildTable
  simp only [Noted.notes_bind, Noted.notes_noteIf, decide_eq_true_eq]
  by_cases hempty : entity.attributes.isEmpty = true
  · simp only [if_pos hempty, Noted.notes_bind, Noted.notes_note, Noted.notes_pure, List.append_nil]
    exact ⟨_, rfl⟩
  · simp only [if_neg hempty, Noted.notes_bind, Noted.notes_pure, List.append_nil]
    exact ⟨_, rfl⟩

/-! ## Attributes that are left out -/

theorem any_appendNew (columns : List Column) (c : Column) (name : String) :
    (appendNew columns c).any (·.name == name) =
      (columns.any (·.name == name) || c.name == name) := by
  have hfind := congrArg Option.isSome (find?_appendNew columns c name)
  rwa [Bool.eq_iff_iff, List.find?_isSome, List.find?_isSome, ← List.any_eq_true,
    ← List.any_eq_true, ← Bool.eq_iff_iff, List.any_append, List.any_cons,
    List.any_nil, Bool.or_false] at hfind

/-- Of several attributes that become a column of one name, all but the first are told to be left
out. -/
theorem count_columnsFor (table column : String) (attributes : List Extraction.Attribute) :
    (columnsFor table attributes).notes.count (.droppedColumn table column) =
      attributes.countP (fun a => columnName a.name = column) - 1 := by
  suffices hgen : ∀ (items : List (Extraction.Attribute × ℕ)) (columns : List Column),
      (Noted.fold (addColumn table) columns items).notes.count (.droppedColumn table column) =
        (items.map (·.1)).countP (fun a => columnName a.name = column) -
          if columns.any (·.name == column) then 0 else 1 by
    rw [columnsFor, hgen, List.zipIdx_map_fst]
    rfl
  intro items
  induction items with
  | nil => simp [Noted.fold]
  | cons item items ih =>
    intro columns
    have hunnamed : (if item.1.column.name = unnamedColumn then
        [Diagnostic.unnamedColumn table item.2] else []).count
          (.droppedColumn table column) = 0 := by
      split <;> simp
    rw [Noted.fold]
    dsimp only
    rw [List.count_append, ih, value_addColumn, any_appendNew, notes_addColumn, List.count_append,
      hunnamed, Nat.zero_add, List.map_cons, List.countP_cons, name_column]
    by_cases hname : columnName item.1.name = column
    · subst hname
      cases columns.any (·.name == columnName item.1.name) <;> simp
      omega
    · have hdropped : (if columns.any (·.name == columnName item.1.name) then
          [Diagnostic.droppedColumn table (columnName item.1.name)] else []).count
            (.droppedColumn table column) = 0 := by
        split <;> simp [hname]
      rw [hdropped]
      simp [hname]

theorem mem_notes_columnsFor {table : String} {attributes : List Extraction.Attribute}
    (h : d ∈ (columnsFor table attributes).notes) :
    (∃ index, d = .unnamedColumn table index) ∨ ∃ column, d = .droppedColumn table column := by
  obtain ⟨columns, item, -, hd⟩ := Noted.mem_notes_fold h
  rw [notes_addColumn] at hd
  rcases List.mem_append.1 hd with hd | hd <;> rw [List.mem_ite_nil_right, List.mem_singleton] at hd
  · exact .inl ⟨_, hd.2⟩
  · exact .inr ⟨_, hd.2⟩

/-! ## Tables one by one -/

theorem name_buildTable (taken : List String) (entity : Extraction.Entity) (index : ℕ) :
    (buildTable taken entity index).value.name = uniqueName (tableName entity.name) taken :=
  (built_buildTable taken entity index).1

/-- A column that is told to be left out while a table is built is one of its own. -/
theorem mem_notes_buildTable {taken : List String} {entity : Extraction.Entity} {index : ℕ}
    {d : Diagnostic} (h : d ∈ (buildTable taken entity index).notes) : d.code ∈ buildCodes ∧
      (d.code = "DUPLICATE_COLUMN" →
        ∃ column, d = .droppedColumn (buildTable taken entity index).value.name column) := by
  obtain ⟨change, hnotes⟩ := notes_buildTable taken entity index
  have hother : ∀ {d : Diagnostic}, d.code ∈ buildCodes ∧ d.code ≠ "DUPLICATE_COLUMN" →
      d.code ∈ buildCodes ∧ (d.code = "DUPLICATE_COLUMN" →
        ∃ column, d = .droppedColumn (buildTable taken entity index).value.name column) :=
    fun h => ⟨h.1, fun hcode => absurd hcode h.2⟩
  rw [hnotes] at h
  rcases List.mem_append.1 h with h | h
  · obtain ⟨-, rfl⟩ := by simpa only [List.mem_ite_nil_right, List.mem_singleton] using h
    exact hother (by simp [Diagnostic.code, buildCodes])
  rcases List.mem_append.1 h with h | h
  · obtain ⟨-, rfl⟩ := by simpa only [List.mem_ite_nil_right, List.mem_singleton] using h
    exact hother (by simp [Diagnostic.code, buildCodes])
  rcases List.mem_append.1 h with h | h
  · split at h
    · obtain rfl := List.mem_singleton.1 h
      exact hother (by simp [Diagnostic.code, buildCodes])
    · rcases mem_notes_columnsFor h with ⟨_, rfl⟩ | ⟨column, rfl⟩
      · exact hother (by simp [Diagnostic.code, buildCodes])
      · exact ⟨by simp [Diagnostic.code, buildCodes], fun _ => ⟨column, by rw [name_buildTable]⟩⟩
  · exact hother (code_noteKeyChange _ change d h)

theorem count_buildTable (taken : List String) (entity : Extraction.Entity) (index : ℕ)
    (column : String) : (buildTable taken entity index).notes.count
        (.droppedColumn (buildTable taken entity index).value.name column) =
      entity.attributes.countP (fun a => columnName a.name = column) - 1 := by
  obtain ⟨change, hnotes⟩ := notes_buildTable taken entity index
  have hkey : (noteKeyChange (uniqueName (tableName entity.name) taken) change).notes.count
      (.droppedColumn (uniqueName (tableName entity.name) taken) column) = 0 :=
    List.count_eq_zero.2 fun hmem => (code_noteKeyChange _ change _ hmem).2 rfl
  have hif (p : Prop) [Decidable p] (d d' : Diagnostic) (hne : d ≠ d') :
      (if p then [d] else []).count d' = 0 := by
    split <;> simp [hne]
  rw [name_buildTable, hnotes, List.count_append, List.count_append, List.count_append, hkey,
    hif _ _ _ (by simp), hif _ _ _ (by simp), Nat.zero_add, Nat.zero_add, Nat.add_zero]
  by_cases hempty : entity.attributes.isEmpty = true
  · rw [if_pos hempty, List.isEmpty_iff.1 hempty]
    simp
  · rw [if_neg hempty, count_columnsFor]

theorem buildTables_append_singleton (entities : List Extraction.Entity)
    (entity : Extraction.Entity) :
    let last := buildTable ((buildTables entities).value.map (·.name)) entity entities.length
    (buildTables (entities ++ [entity])).value = (buildTables entities).value ++ [last.value] ∧
      (buildTables (entities ++ [entity])).notes = (buildTables entities).notes ++ last.notes := by
  intro last
  have hindex : (entities ++ [entity]).zipIdx = entities.zipIdx ++ [(entity, entities.length)] := by
    rw [List.zipIdx_append, Nat.zero_add]
    rfl
  rw [buildTables, hindex]
  obtain ⟨hvalue, hnotes⟩ := Noted.fold_append_singleton (fun tables item => do
    let table ← buildTable (tables.map (·.name)) item.1 item.2
    return tables ++ [table]) [] entities.zipIdx (entity, entities.length)
  exact ⟨hvalue, hnotes.trans (congrArg _ (List.append_nil _))⟩

/-- What is told while the tables are built: a column that is left out is one of a table that is
there. -/
theorem mem_notes_buildTables {entities : List Extraction.Entity} {d : Diagnostic}
    (h : d ∈ (buildTables entities).notes) : d.code ∈ buildCodes ∧
      (d.code = "DUPLICATE_COLUMN" → ∃ t ∈ (buildTables entities).value, ∃ column,
        d = .droppedColumn t.name column) := by
  induction entities using List.reverseRecOn with
  | nil => contradiction
  | append_singleton entities entity ih =>
    obtain ⟨hvalue, hnotes⟩ := buildTables_append_singleton entities entity
    rw [hnotes] at h
    rw [hvalue]
    rcases List.mem_append.1 h with h | h
    · refine ⟨(ih h).1, fun hcode => ?_⟩
      obtain ⟨t, ht, hdropped⟩ := (ih h).2 hcode
      exact ⟨t, List.mem_append_left _ ht, hdropped⟩
    · obtain ⟨hbuild, hdropped⟩ := mem_notes_buildTable h
      exact ⟨hbuild, fun hcode => ⟨_, List.mem_append_right _ (List.mem_singleton_self _),
        hdropped hcode⟩⟩

/-- That a table was renamed is told just if it was. -/
theorem renamedTable_mem_notes_buildTable {taken : List String} {entity : Extraction.Entity}
    {index : ℕ} {name wanted : String} :
    .renamedTable name wanted ∈ (buildTable taken entity index).notes ↔
      (buildTable taken entity index).value.name = name ∧ tableName entity.name = wanted ∧
        name ≠ wanted := by
  obtain ⟨change, hnotes⟩ := notes_buildTable taken entity index
  have hcolumns : .renamedTable name wanted ∉
      (if entity.attributes.isEmpty then [.defaultColumns (uniqueName (tableName entity.name) taken)]
        else (columnsFor (uniqueName (tableName entity.name) taken) entity.attributes).notes) := by
    split
    · simp
    · intro hmem
      rcases mem_notes_columnsFor hmem with ⟨_, heq⟩ | ⟨_, heq⟩ <;> cases heq
  have hkey : .renamedTable name wanted ∉
      (noteKeyChange (uniqueName (tableName entity.name) taken) change).notes := by
    cases change with
    | none => simp [noteKeyChange]
    | some change => cases change <;> simp [noteKeyChange]
  rw [name_buildTable, hnotes]
  simp only [List.mem_append, hcolumns, hkey, or_false, List.mem_ite_nil_right,
    List.mem_singleton, reduceCtorEq, and_false, false_or, Diagnostic.renamedTable.injEq]
  constructor
  · rintro ⟨hne, hname, hwanted⟩
    rw [hname, hwanted]
    exact ⟨rfl, rfl, hne⟩
  · rintro ⟨hname, hwanted, hne⟩
    rw [hname, hwanted]
    exact ⟨hne, rfl, rfl⟩

/-- **Which tables were renamed** is told of each of them, with the name that its entity asks
for. -/
theorem renamedTable_mem_notes_buildTables {entities : List Extraction.Entity}
    {name wanted : String} : .renamedTable name wanted ∈ (buildTables entities).notes ↔
      ∃ p ∈ entities.zip (buildTables entities).value,
        p.2.name = name ∧ tableName p.1.name = wanted ∧ name ≠ wanted := by
  induction entities using List.reverseRecOn with
  | nil => simp [buildTables, Noted.fold]
  | append_singleton entities entity ih =>
    obtain ⟨hvalue, hnotes⟩ := buildTables_append_singleton entities entity
    rw [hnotes, hvalue, List.zip_append (buildTables_spec entities).2.length_eq, List.mem_append,
      ih, renamedTable_mem_notes_buildTable]
    simp only [List.zip_cons_cons, List.zip_nil_right, List.mem_append, List.mem_singleton,
      or_and_right, exists_or, exists_eq_left]

/-- Only of the table that is built a column is told to be left out. -/
theorem droppedColumn_notMem_notes_buildTable {taken : List String} {entity : Extraction.Entity}
    {index : ℕ} {name : String} (h : name ≠ (buildTable taken entity index).value.name)
    (column : String) : .droppedColumn name column ∉ (buildTable taken entity index).notes := by
  intro hmem
  obtain ⟨column', heq⟩ := (mem_notes_buildTable hmem).2 rfl
  exact h (Diagnostic.droppedColumn.inj heq).1

/-- Only of tables that are there a column is told to be left out. -/
theorem droppedColumn_notMem_notes_buildTables {entities : List Extraction.Entity} {name : String}
    (h : name ∉ (buildTables entities).value.map (·.name)) (column : String) :
    .droppedColumn name column ∉ (buildTables entities).notes := by
  intro hmem
  obtain ⟨t, ht, column', heq⟩ := (mem_notes_buildTables hmem).2 rfl
  exact h (List.mem_map.2 ⟨t, ht, (Diagnostic.droppedColumn.inj heq).1.symm⟩)

/-- **The table for an entity** has the first name that is not taken by the tables before it, and
for every column name all attributes but the first are told to be left out. -/
theorem buildTables_getElem? {entities : List Extraction.Entity} {i : ℕ}
    {entity : Extraction.Entity} {t : Table} (hentity : entities[i]? = some entity)
    (ht : (buildTables entities).value[i]? = some t) :
    t.name = uniqueName (tableName entity.name)
        (((buildTables entities).value.map (·.name)).take i) ∧
      ∀ column, (buildTables entities).notes.count (.droppedColumn t.name column) =
        entity.attributes.countP (fun a => columnName a.name = column) - 1 := by
  induction entities using List.reverseRecOn with
  | nil => contradiction
  | append_singleton entities last ih =>
    obtain ⟨hvalue, hnotes⟩ := buildTables_append_singleton entities last
    have hnodup := (buildTables_spec (entities ++ [last])).1
    have hlength := (buildTables_spec entities).2.length_eq
    set taken := (buildTables entities).value.map (·.name) with htaken
    set new := buildTable taken last entities.length with hnew
    rw [hvalue] at ht hnodup ⊢
    rw [hnotes]
    -- the table that is built last has a name of its own
    have hfree : new.value.name ∉ taken := by
      rw [List.map_append, List.nodup_append'] at hnodup
      exact fun hmem => hnodup.2.2 hmem (List.mem_singleton_self _)
    simp only [List.count_append]
    rcases lt_or_ge i entities.length with hi | hi
    · rw [List.getElem?_append_left hi] at hentity
      rw [List.getElem?_append_left (hlength ▸ hi)] at ht
      obtain ⟨hname, hcount⟩ := ih hentity ht
      have hne : t.name ≠ new.value.name := fun heq =>
        hfree (heq ▸ List.mem_map_of_mem (List.mem_of_getElem? ht))
      refine ⟨?_, fun column => ?_⟩
      · rw [hname, List.map_append, List.take_append_of_le_length (by simp [← hlength, hi.le])]
      · rw [hcount, List.count_eq_zero.2 (droppedColumn_notMem_notes_buildTable hne column),
          Nat.add_zero]
    · rw [List.getElem?_append_right hi] at hentity
      rw [List.getElem?_append_right (hlength ▸ hi), ← hlength] at ht
      obtain ⟨hlast, rfl⟩ := List.getElem_of_getElem? hentity
      obtain ⟨-, rfl⟩ := List.getElem_of_getElem? ht
      have hi : i = taken.length := by
        rw [htaken, List.length_map, ← hlength]
        rw [List.length_singleton] at hlast
        omega
      simp only [List.getElem_singleton]
      refine ⟨?_, fun column => ?_⟩
      · rw [hnew, name_buildTable, List.map_append, ← htaken, hi, List.take_left]
      · rw [List.count_eq_zero.2 (droppedColumn_notMem_notes_buildTables hfree column),
          Nat.zero_add, hnew, count_buildTable]

/-- Where an attribute has been left out is told by the names of the table and of the column. -/
theorem countP_location_buildTables (entities : List Extraction.Entity) {name : String}
    (hname : Plain name) (column : String) : (buildTables entities).notes.countP
        (fun d => d.code = "DUPLICATE_COLUMN" ∧ d.location = name ++ "." ++ column) =
      (buildTables entities).notes.count (.droppedColumn name column) := by
  rw [List.count_eq_countP]
  refine List.countP_congr fun d hd => ?_
  rw [decide_eq_true_eq, beq_iff_eq]
  constructor
  · rintro ⟨hcode, hlocation⟩
    obtain ⟨t, ht, column', rfl⟩ := (mem_notes_buildTables hd).2 hcode
    obtain ⟨entity, hbuilt⟩ := exists_entity (buildTables_spec entities).2 ht
    obtain ⟨hsame, hcolumn⟩ : t.name = name ∧ column' = column :=
      hbuilt.plain.dot_inj hname hlocation
    rw [hsame, hcolumn]
  · rintro rfl
    exact ⟨rfl, rfl⟩

/-! ## Relationships that are left out -/

theorem code_placeRelationship {r : Extraction.Relationship}
    (h : d ∈ (placeRelationship tables r).notes) : d.code ∈ placeCodes := by
  unfold placeRelationship at h
  split at h
  · obtain rfl : d = .missingEnd r.name := by simpa using h
    simp [Diagnostic.code, placeCodes]
  · dsimp only at h
    split at h
    · simp only [Noted.notes_bind, Noted.notes_noteIf, Noted.notes_pure, List.append_nil,
        List.mem_ite_nil_right, List.mem_singleton] at h
      obtain ⟨-, rfl⟩ := h
      simp [Diagnostic.code, placeCodes]
    · simp only [Noted.notes_bind, Noted.notes_note, Noted.notes_pure, List.append_nil,
        List.mem_singleton] at h
      subst h
      simp [Diagnostic.code, placeCodes]

theorem code_placeAll {relationships : List Extraction.Relationship}
    (h : d ∈ (placeAll tables relationships).notes) : d.code ∈ placeCodes := by
  obtain ⟨state, r, -, hd⟩ := Noted.mem_notes_fold h
  rw [Noted.notes_bind, Noted.notes_pure, List.append_nil] at hd
  exact code_placeRelationship hd

/-- A relationship is kept, or it is told why not. -/
theorem length_placeRelationship (tables : List Table) (r : Extraction.Relationship) :
    (placeRelationship tables r).value.2.toList.length +
      ((placeRelationship tables r).notes.countP (·.code = "REL_MISSING_ENDPOINT") +
        (placeRelationship tables r).notes.countP (·.code = "REL_UNRESOLVED")) = 1 := by
  unfold placeRelationship
  split
  · rfl
  · dsimp only
    split
    · simp only [Noted.value_bind, Noted.notes_bind, Noted.notes_noteIf, Noted.notes_pure,
        List.append_nil, Noted.value_pure, Option.toList_some, List.length_singleton]
      split <;> rfl
    · rfl

theorem placeAll_append_singleton (tables : List Table)
    (relationships : List Extraction.Relationship) (r : Extraction.Relationship) :
    let before := placeAll tables relationships
    let last := placeRelationship before.value.1 r
    (placeAll tables (relationships ++ [r])).value = (last.value.1,
        before.value.2 ++ last.value.2.toList) ∧
      (placeAll tables (relationships ++ [r])).notes = before.notes ++ last.notes := by
  intro before last
  refine ⟨(Noted.fold_append_singleton _ _ relationships r).1,
    (Noted.fold_append_singleton _ _ relationships r).2.trans ?_⟩
  exact congrArg _ (List.append_nil _)

/-- **No relationship is left out silently.** -/
theorem length_placeAll (tables : List Table) (relationships : List Extraction.Relationship) :
    (placeAll tables relationships).value.2.length +
      ((placeAll tables relationships).notes.countP (·.code = "REL_MISSING_ENDPOINT") +
        (placeAll tables relationships).notes.countP (·.code = "REL_UNRESOLVED")) =
      relationships.length := by
  induction relationships using List.reverseRecOn with
  | nil => rfl
  | append_singleton relationships r ih =>
    have hstep := length_placeRelationship (placeAll tables relationships).value.1 r
    obtain ⟨hvalue, hnotes⟩ := placeAll_append_singleton tables relationships r
    rw [hvalue, hnotes, List.countP_append, List.countP_append, List.length_append,
      List.length_append, List.length_singleton]
    omega

/-! ## What the other stages tell -/

theorem code_resolveDeclared (h : d ∈ (resolveDeclared tables).notes) : d.code ∈ otherCodes := by
  simp only [resolveDeclared, Noted.notes_each, Noted.notes_bind, Noted.notes_pure,
    List.append_nil, List.mem_flatMap] at h
  obtain ⟨t, -, c, -, hd⟩ := h
  unfold resolveColumn at hd
  split at hd
  · split at hd
    · contradiction
    · obtain rfl : d = .unresolvedColumn t.name c.name := by simpa using hd
      simp [Diagnostic.code, otherCodes]
  · contradiction

theorem code_identifyAll {relationships : List Relationship}
    (h : d ∈ (identifyAll tables relationships).notes) : d.code ∈ otherCodes := by
  obtain ⟨tables', r, -, hd⟩ := Noted.mem_notes_fold h
  unfold identify at hd
  split at hd
  · contradiction
  split at hd
  · obtain rfl : d = .selfIdentifying r.targetTable := by simpa using hd
    simp [Diagnostic.code, otherCodes]
  split at hd
  · simp only [Noted.notes_bind, Noted.notes_note, Noted.notes_noteIf, Noted.notes_pure,
      List.append_nil, List.singleton_append, List.mem_cons, List.mem_ite_nil_right,
      List.not_mem_nil, or_false] at hd
    rcases hd with rfl | ⟨-, rfl⟩ <;> simp [Diagnostic.code, otherCodes]
  · contradiction

theorem code_retarget (h : d ∈ (retarget tables).notes) : d.code ∈ otherCodes := by
  simp only [retarget, Noted.notes_each, Noted.notes_bind, Noted.notes_pure, List.append_nil,
    List.mem_flatMap] at h
  obtain ⟨t, -, c, -, hd⟩ := h
  unfold retargetColumn at hd
  split at hd
  · contradiction
  split at hd
  · contradiction
  split at hd
  · contradiction
  · obtain rfl := List.mem_singleton.1 hd
    simp [Diagnostic.code, otherCodes]

theorem code_detectLookups {small : ℤ} (h : d ∈ (detectLookups small tables).notes) :
    d.code ∈ otherCodes := by
  simp only [detectLookups, Noted.notes_each, List.mem_flatMap] at h
  obtain ⟨t, -, hd⟩ := h
  unfold detectLookup at hd
  split at hd
  · obtain rfl : d = .lookupDetected t.name := by simpa using hd
    simp [Diagnostic.code, otherCodes]
  · contradiction

theorem diagnostics_normalize (e : Extraction) (heading : Heading) (small : ℤ) (now : Moment) :
    (e.normalize heading small now).diagnostics =
      (buildTables e.entities).notes ++ ((resolveDeclared e.built).notes ++
        ((placeAll e.resolved e.relationships).notes ++ ((identifyAll e.placed e.kept).notes ++
          ((retarget e.ordered).notes ++
            (detectLookups small (retarget e.ordered).value).notes)))) := by
  simp only [Extraction.normalize, tablesAndRelationships, Noted.notes_bind, Noted.notes_pure,
    List.append_nil]
  rfl

/-- **What is told about losses** is told while the tables are built and while the relationships are
placed. -/
theorem countP_diagnostics (e : Extraction) (heading : Heading) (small : ℤ) (now : Moment)
    {p : Diagnostic → Bool} (h : ∀ d : Diagnostic, d.code ∈ otherCodes → p d = false) :
    (e.normalize heading small now).diagnostics.countP p =
      (buildTables e.entities).notes.countP p +
        (placeAll e.resolved e.relationships).notes.countP p := by
  rw [diagnostics_normalize]
  simp only [List.countP_append, countP_eq_zero_of_code (fun _ => code_resolveDeclared) h,
    countP_eq_zero_of_code (fun _ => code_identifyAll) h,
    countP_eq_zero_of_code (fun _ => code_retarget) h,
    countP_eq_zero_of_code (fun _ => code_detectLookups) h, Nat.zero_add, Nat.add_zero]

/-- What is told under a code of the first stage is told there. -/
theorem mem_diagnostics_of_code (e : Extraction) (heading : Heading) (small : ℤ) (now : Moment)
    (hcode : d.code ∈ buildCodes) :
    d ∈ (e.normalize heading small now).diagnostics ↔ d ∈ (buildTables e.entities).notes := by
  have hapart : ∀ code ∈ buildCodes, code ∉ placeCodes ∧ code ∉ otherCodes := by decide
  obtain ⟨hplace, hother⟩ := hapart d.code hcode
  rw [diagnostics_normalize]
  simp only [List.mem_append, mt code_resolveDeclared hother, mt code_placeAll hplace,
    mt code_identifyAll hother, mt code_retarget hother, mt code_detectLookups hother, or_false]

end Normalize

end Schemata
