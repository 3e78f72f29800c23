import Schemata.Proofs.Identifier
import Schemata.Proofs.Normalize.Content

/-!
# The names in a normalized extraction

Whatever the labels in an extraction are, the names of its tables and columns can stand in a script
as they are, and to make a name of such a name changes nothing (`names_normalize`). So a
relationship whose ends are called by the names of tables joins these very tables.

Every stage keeps the names among those in `IsGuarded`: the ones that a stage adds are made of
labels, of the names of tables or are fixed.
-/

namespace Schemata

variable {t : Table}

namespace Normalize

/-- The columns of a table have guarded names. -/
def HasGuardedNames (t : Table) : Prop :=
  ∀ name, t.hasColumn name = true → IsGuarded name

/-! ## One table -/

theorem hasGuardedNames_iff : HasGuardedNames t ↔ ∀ name ∈ t.columnNames, IsGuarded name :=
  forall_congr' fun _ => by rw [Table.mem_columnNames]

/-- The names of the columns that no label asks for. -/
theorem isGuarded_usual : (∀ name ∈ [defaultKeyName, partialKeyName, unnamedAttribute],
    IsGuarded name) ∧ (∀ name ∈ stampNames, IsGuarded name) ∧
      ∀ c ∈ Column.defaults, IsGuarded c.name := by
  decide +kernel

namespace HasGuardedNames

theorem withPrimaryKey (h : HasGuardedNames t) : HasGuardedNames t.withPrimaryKey.1 := by
  intro name hname
  by_cases hkey : name = defaultKeyName
  · exact isGuarded_usual.1 name (by simp [hkey])
  · exact h name ((Table.hasColumn_withPrimaryKey hkey).1 hname)

theorem withStamp (h : HasGuardedNames t) {stamp : String} (hstamp : stamp ∈ stampNames) :
    HasGuardedNames (t.withStamp stamp) := by
  intro name hname
  rcases (Table.hasColumn_withStamp t stamp).1 hname with hname | rfl
  · exact h name hname
  · exact isGuarded_usual.2.1 _ hstamp

theorem placeIn (h : HasGuardedNames t) {other : Table} (hother : IsGuarded other.name)
    (holder : String) : HasGuardedNames (placeIn other holder t) := by
  unfold Normalize.placeIn
  split
  · intro name hname
    rcases (Table.hasColumn_withForeignKey t other).1 hname with hname | rfl
    · exact h name hname
    · exact hother.foreignKeyName
  · exact h

theorem identifyThrough (h : HasGuardedNames t) {owner : Table} (howner : IsGuarded owner.name)
    (target : String) : HasGuardedNames (identifyThrough owner target t) := by
  unfold Normalize.identifyThrough
  split
  · intro name hname
    rcases Table.hasColumn_withIdentifyingKey.1 hname with hname | rfl | ⟨rfl, -⟩
    · exact h name hname
    · exact howner.foreignKeyName
    · exact isGuarded_usual.1 _ (by simp)
  · exact h

theorem finish (h : HasGuardedNames t) (small : ℤ) (tables : List Table) :
    HasGuardedNames (finish small tables t.withContiguousKey) := by
  rw [hasGuardedNames_iff, columnNames_finish]
  intro name hname
  exact hasGuardedNames_iff.1 h name
    ((Table.perm_columnNames_withContiguousKey t).subset hname)

end HasGuardedNames

theorem hasGuardedNames_buildTable (taken : List String) (entity : Extraction.Entity)
    (index : ℕ) : HasGuardedNames (buildTable taken entity index).value := by
  obtain ⟨t, -, hcolumns, hvalue⟩ := value_buildTable taken entity index
  have hstart : HasGuardedNames t := by
    intro name hname
    obtain ⟨c, hc, rfl⟩ := Table.hasColumn_iff.1 hname
    rw [hcolumns] at hc
    split at hc
    · exact isGuarded_usual.2.2 c hc
    · rw [value_columnsFor] at hc
      have hmem := (mem_foldl_appendNew hc).resolve_left List.not_mem_nil
      obtain ⟨a, -, rfl⟩ := List.mem_map.1 hmem
      rw [name_column]
      exact .columnName a.name
  rw [hvalue]
  exact (hstart.withPrimaryKey.withStamp (by decide)).withStamp (by decide)

end Normalize

open Normalize

namespace Extraction

variable (e : Extraction) (heading : Heading) (small : ℤ) (now : Moment)

/-! ## All tables -/

theorem isGuarded_built : ∀ name ∈ e.built.map (·.name), IsGuarded name := by
  rw [List.forall_mem_map]
  intro b hb
  obtain ⟨taken, entity, index, rfl⟩ := exists_buildTable hb
  rw [(built_buildTable taken entity index).1]
  exact (IsGuarded.tableName entity.name).uniqueName taken

/-- The names of tables are made of tidy words. -/
theorem isGuarded_normalize :
    ∀ name ∈ (e.normalize heading small now).schema.tableNames, IsGuarded name := by
  rw [tableNames_normalize]
  exact e.isGuarded_built

/-- What is built is guarded, and stays so when references are resolved. -/
theorem guarded_resolved : ∀ t ∈ e.resolved, IsGuarded t.name ∧ HasGuardedNames t := by
  intro t ht
  refine ⟨e.isGuarded_built t.name (e.names_resolved ▸ List.mem_map_of_mem ht), ?_⟩
  rw [resolved_eq] at ht
  obtain ⟨b, hb, rfl⟩ := List.mem_map.1 ht
  rw [hasGuardedNames_iff, (resolve_spec hb).2.1, ← hasGuardedNames_iff]
  obtain ⟨taken, entity, index, rfl⟩ := exists_buildTable hb
  exact hasGuardedNames_buildTable taken entity index

theorem guarded_placed : ∀ t ∈ e.placed, IsGuarded t.name ∧ HasGuardedNames t := by
  obtain ⟨heq, hjoins⟩ := value_placeAll e.placed_resolved e.relationships
  rw [placed, heq]
  refine e.placed_resolved.foldl_place_induction
    (p := fun tables => ∀ t ∈ tables, IsGuarded t.name ∧ HasGuardedNames t) hjoins
    e.guarded_resolved ?_
  intro tables hplaced h other hother holder
  rw [List.forall_mem_map]
  intro t ht
  rw [(grows_placeIn hother (hplaced.distinct t ht) holder).name_eq]
  exact ⟨(h t ht).1, (h t ht).2.placeIn (h other hother).1 holder⟩

theorem guarded_identified : ∀ t ∈ e.identified, IsGuarded t.name ∧ HasGuardedNames t := by
  obtain ⟨hplaced, hjoins, -⟩ := e.placed_spec
  refine identifyAll_induction
    (p := fun tables => ∀ t ∈ tables, IsGuarded t.name ∧ HasGuardedNames t)
    hplaced.linked hplaced.consistent hjoins e.guarded_placed ?_
  intro tables _ _ h owner howner target _
  rw [List.forall_mem_map]
  intro t ht
  rw [(grows_identifyThrough howner target t).name_eq]
  exact ⟨(h t ht).1, (h t ht).2.identifyThrough (h owner howner).1 target⟩

/-- **The names of tables and columns are guarded.** -/
theorem guarded_normalize : ∀ t ∈ (e.normalize heading small now).schema.tables,
    IsGuarded t.name ∧ HasGuardedNames t := by
  rw [tables_normalize, ordered, List.map_map, List.forall_mem_map]
  intro t ht
  obtain ⟨hname, hnames⟩ := e.guarded_identified t ht
  exact ⟨(sameKeys_finish small e.ordered t.withContiguousKey).name_eq.symm ▸ hname,
    hnames.finish small e.ordered⟩

/-! ## Relationships -/

/-- The attribute of a relationship is called by its label, or else by its description. -/
theorem isGuarded_relationshipColumn (a : Attribute) : IsGuarded a.relationshipColumn.name := by
  unfold Attribute.relationshipColumn
  dsimp only
  split
  · exact .columnName _
  · exact isGuarded_usual.1 _ (by simp)

variable {e heading small now}

/-- A relationship that is kept joins the tables that its ends are the labels of. -/
theorem ends_normalize {r : Schemata.Relationship}
    (hr : r ∈ (e.normalize heading small now).schema.relationships) :
    r.sourceTable = tableName (some r.sourceEntity) ∧
      r.targetTable = tableName (some r.targetEntity) := by
  obtain ⟨q, -, source, target, -, -, -, rfl⟩ := mem_relationships_normalize.1 hr
  simp only [relationshipFor, and_self]

end Extraction

/-- **Names.** The snake case of a label consists of words of lower-case letters and digits, joined
by single underscores. To make a snake case, the name of a table or the name of a column of what was
made so changes nothing. In a normalized extraction the names of all tables and columns, and those
of the attributes of relationships, can stand in a script as they are, and are the names that would
be made of them. So the label that is the name of a table finds this table, a relationship with two
such labels is kept and joins their tables, and one that is kept joins the table of such a label. -/
theorem names_normalize :
    (∀ label : String, ∃ words : List String,
        (∀ word ∈ words, word ≠ "" ∧ ∀ c ∈ word.toList, Text.isLowerAlphanum c = true) ∧
          snakeCase label = String.intercalate "_" words) ∧
      (∀ label : String, snakeCase (snakeCase label) = snakeCase label) ∧
      (∀ label : Option String, tableName (some (tableName label)) = tableName label ∧
        columnName (some (columnName label)) = columnName label) ∧
      ∀ (e : Extraction) (heading : Heading) (small : ℤ) (now : Moment),
        let s := (e.normalize heading small now).schema
        (∀ t ∈ s.tables,
          Sql.isPlainName t.name.toList = true ∧ tableName (some t.name) = t.name ∧
            ∀ c ∈ t.columns,
              Sql.isPlainName c.name.toList = true ∧ columnName (some c.name) = c.name) ∧
        (∀ r ∈ s.relationships, ∀ a ∈ r.attributes,
          Sql.isPlainName a.name.toList = true ∧ columnName (some a.name) = a.name) ∧
        (∀ t ∈ s.tables, table? s.tables (tableName (some t.name)) = some t) ∧
        (∀ q ∈ e.relationships, ∀ source ∈ s.tableNames, ∀ target ∈ s.tableNames,
          ends? q = some (source, target) →
            ∃ kind, relationshipFor q kind source target source target ∈ s.relationships) ∧
        ∀ r ∈ s.relationships,
          (r.sourceEntity ∈ s.tableNames → r.sourceTable = r.sourceEntity) ∧
            (r.targetEntity ∈ s.tableNames → r.targetTable = r.targetEntity) := by
  refine ⟨exists_words_snakeCase, snakeCase_snakeCase, fun label => ⟨?_, ?_⟩,
    fun e heading small now => ?_⟩
  · exact (IsGuarded.tableName label).identifierFor_eq_self _
  · exact (IsGuarded.columnName label).identifierFor_eq_self _
  intro s
  have hguarded : ∀ t ∈ s.tables, IsGuarded t.name ∧ HasGuardedNames t :=
    e.guarded_normalize heading small now
  have hnames : ∀ name ∈ s.tableNames, tableName (some name) = name := by
    rw [Schema.tableNames, List.forall_mem_map]
    exact fun t ht => (hguarded t ht).1.identifierFor_eq_self _
  refine ⟨fun t ht => ⟨(hguarded t ht).1.isPlainName, ?_, fun c hc => ?_⟩, fun r hr a ha => ?_,
    fun t ht => ?_, fun q hq source hsource target htarget hends => ?_, fun r hr => ?_⟩
  · exact hnames t.name (List.mem_map_of_mem ht)
  · have hname := (hguarded t ht).2 c.name (Table.hasColumn_iff.2 ⟨c, hc, rfl⟩)
    exact ⟨hname.isPlainName, hname.identifierFor_eq_self _⟩
  · obtain ⟨q, -, b, -, rfl⟩ := Extraction.exists_attribute_of_mem hr ha
    have hname := Extraction.isGuarded_relationshipColumn b
    exact ⟨hname.isPlainName, hname.identifierFor_eq_self _⟩
  · rw [hnames t.name (List.mem_map_of_mem ht)]
    exact table?_of_mem (tablesAndRelationships_spec small e).linked.names ht
  · refine ⟨(RelationshipKind.assumed q.type).1, Extraction.mem_relationships_normalize.2
      ⟨q, hq, source, target, hends, ?_⟩⟩
    rw [hnames source hsource, hnames target htarget]
    exact ⟨hsource, htarget, rfl⟩
  · obtain ⟨hsource, htarget⟩ := Extraction.ends_normalize hr
    exact ⟨fun h => hsource.trans (hnames _ h), fun h => htarget.trans (hnames _ h)⟩

/-- Floors and their rooms, the floors called as their table is. -/
def floors : Extraction where
  entities := [{ name := some "2nd Floor" }, { name := some "Room" }]
  relationships := [{ sourceEntity := some "_2nd_floor", targetEntity := some "room" }]

theorem names_floors :
    let s := (floors.normalize {} 3 { year := 2024, month := 1, day := 1 }).schema
    s.tableNames = ["_2nd_floor", "room"] ∧
      (∀ t ∈ s.tables, Sql.isPlainName t.name.toList = true ∧
        table? s.tables (tableName (some t.name)) = some t) ∧
      ∃ q ∈ floors.relationships, ∃ kind,
        relationshipFor q kind "_2nd_floor" "room" "_2nd_floor" "room" ∈ s.relationships := by
  intro s
  have hnames : s.tableNames = ["_2nd_floor", "room"] := by decide +kernel
  obtain ⟨-, -, -, hall⟩ := names_normalize
  obtain ⟨htables, -, hfound, hkept, -⟩ :=
    hall floors {} 3 { year := 2024, month := 1, day := 1 }
  refine ⟨hnames, fun t ht => ⟨(htables t ht).1, hfound t ht⟩, _, List.mem_cons_self, ?_⟩
  exact hkept _ List.mem_cons_self "_2nd_floor" (by rw [hnames]; decide) "room"
    (by rw [hnames]; decide) rfl

end Schemata
