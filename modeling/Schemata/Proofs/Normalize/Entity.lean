import Mathlib.Data.List.Forall2
import Schemata.Normalize.Entity
import Schemata.Proofs.Normalize.Link

/-!
# The tables built from entities

`buildTables_spec`: there is one table for each entity, in order, the names are distinct, being
chosen one after the other (`names_buildTables`), and every table is `Built` from its entity. Its
columns are distinct and have no references yet, and the ones that are to become foreign keys are
those whose first attribute was declared one.

`resolveDeclared` then gives the declared columns their references: from there on the tables are
`Linked` (`linked_resolveDeclared`).
-/

namespace Schemata

/-- The entity declares the column of a name a foreign key: the first of its attributes that becomes
a column of the name does so. -/
def Extraction.Entity.Declares (entity : Extraction.Entity) (column : String) : Prop :=
  ∃ a, entity.attributes.find? (fun a => columnName a.name == column) = some a ∧
    a.isForeignKey = true

namespace Normalize

open Extraction (given?)

/-! ## Columns -/

theorem name_column (a : Extraction.Attribute) : a.column.name = columnName a.name := by
  rw [Extraction.Attribute.column]

/-- A column appended to others, unless its name is taken. -/
def appendNew (columns : List Column) (c : Column) : List Column :=
  if columns.any (·.name == c.name) then columns else columns ++ [c]

theorem value_addColumn (table : String) (columns : List Column)
    (item : Extraction.Attribute × ℕ) :
    (addColumn table columns item).value = appendNew columns item.1.column := by
  unfold addColumn appendNew
  simp only [Noted.value_bind]
  split <;> rfl

theorem value_columnsFor (table : String) (attributes : List Extraction.Attribute) :
    (columnsFor table attributes).value = (attributes.map (·.column)).foldl appendNew [] := by
  have hfst : attributes = attributes.zipIdx.map Prod.fst := (List.zipIdx_map_fst ..).symm
  unfold columnsFor
  simp only [Noted.value_fold, value_addColumn]
  conv_rhs => rw [hfst, List.map_map, List.foldl_map]
  rfl

theorem find?_appendNew (columns : List Column) (c : Column) (name : String) :
    (appendNew columns c).find? (·.name == name) = (columns ++ [c]).find? (·.name == name) := by
  unfold appendNew
  split
  · rename_i htaken
    obtain ⟨d, hd, hname⟩ := List.any_eq_true.1 htaken
    rw [List.find?_append]
    by_cases hc : c.name = name
    · have hsome : (columns.find? (·.name == name)).isSome = true :=
        List.find?_isSome.2 ⟨d, hd, by rwa [← hc]⟩
      rw [Option.or_of_isSome hsome]
    · simp [hc]
  · rfl

/-- Of several columns of one name the first is kept. -/
theorem find?_foldl_appendNew (columns new : List Column) (name : String) :
    (new.foldl appendNew columns).find? (·.name == name) =
      (columns ++ new).find? (·.name == name) := by
  induction new generalizing columns with
  | nil => simp
  | cons c new ih =>
    rw [List.foldl_cons, ih, List.find?_append, find?_appendNew, ← List.find?_append,
      List.append_assoc, List.singleton_append]

theorem nodup_foldl_appendNew {columns : List Column} (new : List Column)
    (h : (columns.map (·.name)).Nodup) : ((new.foldl appendNew columns).map (·.name)).Nodup := by
  induction new generalizing columns with
  | nil => exact h
  | cons c new ih =>
    refine ih ?_
    unfold appendNew
    split
    · exact h
    · rename_i hfree
      refine nodup_map_append h fun d hd hname => hfree ?_
      exact List.any_eq_true.2 ⟨d, hd, by simpa using hname⟩

theorem mem_foldl_appendNew {columns new : List Column} {c : Column}
    (h : c ∈ new.foldl appendNew columns) : c ∈ columns ∨ c ∈ new := by
  induction new generalizing columns with
  | nil => exact .inl h
  | cons d new ih =>
    rcases ih h with h | h
    · unfold appendNew at h
      split at h
      · exact .inl h
      · rcases List.mem_append.1 h with h | h
        · exact .inl h
        · exact .inr (List.mem_cons.2 (.inl (List.mem_singleton.1 h)))
    · exact .inr (List.mem_cons_of_mem _ h)

/-! ## Tables -/

/-- A table that was built from an entity. -/
structure Built (entity : Extraction.Entity) (t : Table) : Prop where
  plain : Plain t.name
  fresh : t.Fresh
  keyed : t.keyColumns ≠ []
  hasForeignKey : ∀ column, t.HasForeignKey column ↔ entity.Declares column

/-- The columns with which the table for an entity starts. -/
theorem fresh_columnsFor (t : Table) (table : String) (attributes : List Extraction.Attribute)
    (h : t.columns = (columnsFor table attributes).value) : t.Fresh where
  distinct := by
    rw [Table.Distinct, h, value_columnsFor]
    exact nodup_foldl_appendNew _ List.nodup_nil
  bare c hc := by
    rw [h, value_columnsFor] at hc
    obtain ⟨a, -, rfl⟩ := List.mem_map.1 ((mem_foldl_appendNew hc).resolve_left (by simp))
    rfl

/-- A name has the column of the first attribute that becomes a column of the name. -/
theorem column?_columnsFor {t : Table} {table : String} {entity : Extraction.Entity}
    (h : t.columns = (columnsFor table entity.attributes).value) (column : String) :
    t.column? column =
      (entity.attributes.find? fun a => columnName a.name == column).map (·.column) := by
  rw [Table.column?, h, value_columnsFor, find?_foldl_appendNew, List.nil_append, List.find?_map]
  simp only [Function.comp_def, name_column]

theorem exists_columnsFor {t : Table} {table : String} {entity : Extraction.Entity}
    (h : t.columns = (columnsFor table entity.attributes).value) (p : Column → Prop)
    (column : String) : (∃ c ∈ t.columns, p c ∧ c.name = column) ↔
      ∃ a, entity.attributes.find? (fun a => columnName a.name == column) = some a ∧
        p a.column := by
  have hfind := column?_columnsFor h column
  constructor
  · rintro ⟨c, hc, hp, hname⟩
    obtain ⟨d, hd⟩ : ∃ d, t.column? column = some d :=
      Option.isSome_iff_exists.1 (List.find?_isSome.2 ⟨c, hc, by simpa using hname⟩)
    obtain rfl := (fresh_columnsFor t table _ h).distinct.eq_of_column? hd hc hname
    rw [hfind] at hd
    obtain ⟨a, ha, rfl⟩ := Option.map_eq_some_iff.1 hd
    exact ⟨a, ha, hp⟩
  · rintro ⟨a, ha, hp⟩
    rw [ha, Option.map_some] at hfind
    obtain ⟨hmem, hname⟩ := Table.mem_of_column? hfind
    exact ⟨a.column, hmem, hp, hname⟩

theorem hasForeignKey_columnsFor {t : Table} {table : String} {entity : Extraction.Entity}
    (h : t.columns = (columnsFor table entity.attributes).value) (column : String) :
    t.HasForeignKey column ↔ entity.Declares column :=
  exists_columnsFor h (fun c => c.isForeignKey = true) column

theorem fresh_defaults {t : Table} (h : t.columns = Column.defaults) : t.Fresh where
  distinct := by
    rw [Table.Distinct, h]
    decide
  bare := by
    rw [h]
    decide

theorem not_hasForeignKey_defaults {t : Table} (h : t.columns = Column.defaults)
    (column : String) : ¬t.HasForeignKey column := by
  rintro ⟨c, hc, hkey, -⟩
  rw [h] at hc
  have hplain : ∀ c ∈ Column.defaults, c.isForeignKey = false := by decide
  rw [hplain c hc] at hkey
  contradiction

/-- The table for an entity is a table of the entity's columns, given a key and the columns that
hold the moments of a row. -/
theorem value_buildTable (taken : List String) (entity : Extraction.Entity) (index : ℕ) :
    ∃ t : Table, t.name = uniqueName (tableName entity.name) taken ∧
      t.columns = (if entity.attributes.isEmpty then Column.defaults
        else (columnsFor t.name entity.attributes).value) ∧
      (buildTable taken entity index).value = t.withPrimaryKey.1.withStamps := by
  let name := uniqueName (tableName entity.name) taken
  refine ⟨
    { name
      columns := if entity.attributes.isEmpty then Column.defaults
        else (columnsFor name entity.attributes).value
      description := (given? entity.description).getD
        ("Table for " ++ (given? entity.name).getD name)
      isWeakEntity := entity.isWeakEntity
      isLookupTable := entity.isLookupTable
      position := some (placeAt entity.position index) }, rfl, rfl, ?_⟩
  unfold buildTable
  simp only [Noted.value_bind]
  split <;> rfl

theorem built_buildTable (taken : List String) (entity : Extraction.Entity) (index : ℕ) :
    (buildTable taken entity index).value.name = uniqueName (tableName entity.name) taken ∧
      Built entity (buildTable taken entity index).value := by
  obtain ⟨t, hname, hcolumns, hvalue⟩ := value_buildTable taken entity index
  have hfresh : t.Fresh := by
    split at hcolumns
    · exact fresh_defaults hcolumns
    · exact fresh_columnsFor t _ _ hcolumns
  have hkeys : ∀ column, t.HasForeignKey column ↔ entity.Declares column := by
    intro column
    split at hcolumns
    · rename_i hempty
      rw [List.isEmpty_iff] at hempty
      simp [not_hasForeignKey_defaults hcolumns, Extraction.Entity.Declares, hempty]
    · exact hasForeignKey_columnsFor hcolumns column
  have hname' : (buildTable taken entity index).value.name =
      uniqueName (tableName entity.name) taken := by
    rw [hvalue, Table.withStamps, Table.withStamp_name, Table.withStamp_name,
      Table.withPrimaryKey_name, hname]
  refine ⟨hname', ?_, ?_, ?_, fun column => ?_⟩
  · rw [hname']
    exact (Plain.tableName _).uniqueName _
  · rw [hvalue]
    exact (hfresh.withPrimaryKey.withStamp _).withStamp _
  · rw [hvalue, Table.withStamps, Table.keyColumns_withStamp, Table.keyColumns_withStamp]
    exact Table.keyed_withPrimaryKey t
  · rw [hvalue, Table.withStamps, Table.hasForeignKey_withStamp, Table.hasForeignKey_withStamp,
      Table.hasForeignKey_withPrimaryKey hfresh.distinct, hkeys]

/-- The tables for the entities from a point on, `tables` being the ones before them. -/
theorem exists_foldl_buildTable (entities : List Extraction.Entity) (k : ℕ) (tables : List Table) :
    ∃ new, (entities.zipIdx k).foldl (fun tables item =>
          tables ++ [(buildTable (tables.map (·.name)) item.1 item.2).value]) tables =
        tables ++ new ∧
      new.map (·.name) = uniqueNames (tables.map (·.name)) (entities.map (tableName ·.name)) ∧
      List.Forall₂ (fun entity t => ∃ taken index, (buildTable taken entity index).value = t)
        entities new := by
  induction entities generalizing k tables with
  | nil => exact ⟨[], by simp, rfl, .nil⟩
  | cons entity entities ih =>
    obtain ⟨hname, -⟩ := built_buildTable (tables.map (·.name)) entity k
    set t := (buildTable (tables.map (·.name)) entity k).value with ht
    obtain ⟨new, hvalue, hnames, hrest⟩ := ih (k + 1) (tables ++ [t])
    refine ⟨t :: new, ?_, ?_, .cons ⟨_, k, ht.symm⟩ hrest⟩
    · rw [List.zipIdx_cons, List.foldl_cons, ← ht, hvalue, List.append_assoc, List.singleton_append]
    · rw [List.map_cons, List.map_cons, uniqueNames, hnames, List.map_append, List.map_singleton,
        hname]

/-- **The names of the tables** are chosen one after the other, for the names of the entities. -/
theorem names_buildTables (entities : List Extraction.Entity) :
    (buildTables entities).value.map (·.name) =
      uniqueNames [] (entities.map (tableName ·.name)) := by
  obtain ⟨new, hvalue, hnames, -⟩ := exists_foldl_buildTable entities 0 []
  rw [buildTables, Noted.value_fold]
  exact (congrArg (List.map (·.name)) hvalue).trans hnames

/-- There is one table for each entity, built by `buildTable`, and their names are distinct. -/
theorem forall₂_buildTables (entities : List Extraction.Entity) :
    ((buildTables entities).value.map (·.name)).Nodup ∧
      List.Forall₂ (fun entity t => ∃ taken index, (buildTable taken entity index).value = t)
        entities (buildTables entities).value := by
  obtain ⟨new, hvalue, -, hbuilt⟩ := exists_foldl_buildTable entities 0 []
  have hvalue : (buildTables entities).value = new := by
    rw [buildTables, Noted.value_fold]
    exact hvalue
  refine ⟨?_, hvalue ▸ hbuilt⟩
  rw [names_buildTables]
  exact nodup_uniqueNames _ _

/-- **There is one table for each entity, and their names are distinct.** -/
theorem buildTables_spec (entities : List Extraction.Entity) :
    ((buildTables entities).value.map (·.name)).Nodup ∧
      List.Forall₂ Built entities (buildTables entities).value := by
  obtain ⟨hnames, hbuilt⟩ := forall₂_buildTables entities
  refine ⟨hnames, hbuilt.imp ?_⟩
  rintro entity _ ⟨taken, index, rfl⟩
  exact (built_buildTable taken entity index).2

theorem exists_entity {entities : List Extraction.Entity} {built : List Table}
    (h : List.Forall₂ Built entities built) {t : Table} (ht : t ∈ built) :
    ∃ entity, Built entity t := by
  obtain ⟨i, hi, rfl⟩ := List.getElem_of_mem ht
  exact ⟨_, h.get (by rw [h.length_eq]; exact hi) hi⟩

/-! ## Declared references -/

theorem value_resolveDeclared (tables : List Table) :
    (resolveDeclared tables).value = tables.map fun t =>
      { t with columns := t.columns.map fun c => (resolveColumn tables t.name c).value } := by
  simp [resolveDeclared, Noted.value_each]

/-- What becomes of a column that was declared a reference, or was not. -/
theorem value_resolveColumn (tables : List Table) (table : String) (c : Column)
    (hbare : c.references = none) :
    (c.isForeignKey = false ∧ (resolveColumn tables table c).value = c) ∨
      c.isForeignKey = true ∧
        ((∃ u ∈ tables, u.name ++ "_id" = c.name ∧ (resolveColumn tables table c).value =
          { c with references := some u.reference }) ∨
        ((∀ u ∈ tables, u.name ++ "_id" ≠ c.name) ∧ (resolveColumn tables table c).value =
          { c with isForeignKey := false })) := by
  unfold resolveColumn
  cases hkey : c.isForeignKey with
  | false => exact .inl ⟨rfl, rfl⟩
  | true =>
    refine .inr ⟨rfl, ?_⟩
    simp only [hbare, Option.isNone_none, Bool.and_self, if_true]
    split
    · rename_i u hu
      exact .inl ⟨u, List.mem_of_find?_eq_some hu, by simpa using List.find?_some hu, rfl⟩
    · rename_i hnone
      exact .inr ⟨fun u hu => by simpa using List.find?_eq_none.1 hnone u hu, rfl⟩

variable {tables : List Table}

/-- The declared foreign keys that name a table are foreign keys, and no others are. -/
theorem hasForeignKey_resolved {t : Table} (hfresh : t.Fresh)
    (hplain : ∀ u ∈ tables, Plain u.name) (column : String) :
    Table.HasForeignKey
        { t with columns := t.columns.map fun c => (resolveColumn tables t.name c).value } column ↔
      t.HasForeignKey column ∧ ∃ u ∈ tables, column = foreignKeyName u.name := by
  constructor
  · rintro ⟨d, hd, hkey, rfl⟩
    obtain ⟨c, hc, rfl⟩ := List.mem_map.1 hd
    rcases value_resolveColumn tables t.name c (hfresh.bare c hc) with
      ⟨hno, heq⟩ | ⟨hyes, ⟨u, hu, hname, heq⟩ | ⟨-, heq⟩⟩ <;> rw [heq] at hkey ⊢
    · rw [hno] at hkey
      contradiction
    · exact ⟨⟨c, hc, hyes, rfl⟩, u, hu, by rw [foreignKeyName_of_plain (hplain u hu), hname]⟩
    · contradiction
  · rintro ⟨⟨c, hc, hkey, rfl⟩, u, hu, hname⟩
    refine ⟨_, List.mem_map_of_mem hc, ?_⟩
    rcases value_resolveColumn tables t.name c (hfresh.bare c hc) with
      ⟨hno, -⟩ | ⟨-, ⟨_, -, -, heq⟩ | ⟨hnone, -⟩⟩
    · rw [hno] at hkey
      contradiction
    · rw [heq]
      exact ⟨hkey, rfl⟩
    · exact absurd (hname.trans (foreignKeyName_of_plain (hplain u hu))).symm (hnone u hu)

theorem value_resolveColumn_spec (table : String) {c : Column} (hbare : c.references = none)
    (hplain : ∀ u ∈ tables, Plain u.name) :
    (resolveColumn tables table c).value.name = c.name ∧
      (resolveColumn tables table c).value.isPrimaryKey = c.isPrimaryKey ∧
      (resolveColumn tables table c).value.IsConsistent ∧
      ∀ r, (resolveColumn tables table c).value.references = some r →
        ∃ u ∈ tables, r.table = u.name ∧ r.column = u.referencedKey.name ∧
          c.name = foreignKeyName u.name := by
  rcases value_resolveColumn tables table c hbare with
    ⟨hno, heq⟩ | ⟨hyes, ⟨u, hu, hname, heq⟩ | ⟨-, heq⟩⟩ <;> rw [heq]
  · refine ⟨rfl, rfl, by rw [Column.IsConsistent, hno, hbare]; rfl, fun r hr => ?_⟩
    rw [hbare] at hr
    contradiction
  · refine ⟨rfl, rfl, hyes, fun r hr => ?_⟩
    obtain rfl : u.reference = r := Option.some.inj hr
    exact ⟨u, hu, rfl, rfl, by rw [foreignKeyName_of_plain (hplain u hu), hname]⟩
  · refine ⟨rfl, rfl, by rw [Column.IsConsistent, hbare]; rfl, fun r hr => ?_⟩
    rw [hbare] at hr
    contradiction

/-- A declared reference leads to the key of a table. -/
theorem grows_resolved {t : Table} (hfresh : t.Fresh) (hplain : ∀ u ∈ tables, Plain u.name) :
    Table.Grows tables t
      { t with columns := t.columns.map fun c => (resolveColumn tables t.name c).value } := by
  have hspec : ∀ c ∈ t.columns, _ := fun c hc =>
    value_resolveColumn_spec t.name (hfresh.bare c hc) hplain
  exact .of_map (fun c hc => (hspec c hc).1) (fun c hc => (hspec c hc).2.1)
    (fun c hc _ => (hspec c hc).2.2.1) fun c hc r hr => .inr ((hspec c hc).2.2.2 r hr)

/-- **With the declared references the tables are linked.** -/
theorem linked_resolveDeclared (hnames : (tables.map (·.name)).Nodup)
    (hplain : ∀ t ∈ tables, Plain t.name) (hkeyed : ∀ t ∈ tables, t.keyColumns ≠ [])
    (hfresh : ∀ t ∈ tables, t.Fresh) :
    Linked (resolveDeclared tables).value ∧ Consistent (resolveDeclared tables).value ∧
      ∀ t ∈ (resolveDeclared tables).value, t.Distinct := by
  have hbare : Linked tables :=
    ⟨hnames, hplain, hkeyed, fun t ht c hc r hr => by simp [(hfresh t ht).bare c hc] at hr⟩
  have hspec : ∀ t ∈ tables, ∀ c ∈ t.columns, _ := fun t ht c hc =>
    value_resolveColumn_spec t.name ((hfresh t ht).bare c hc) hplain
  rw [value_resolveDeclared]
  refine ⟨hbare.map fun t ht => grows_resolved (hfresh t ht) hplain, ?_, ?_⟩
  · simp only [Consistent, List.forall_mem_map]
    exact fun t ht c hc => (hspec t ht c hc).2.2.1
  · simp only [List.forall_mem_map, Table.Distinct, List.map_map]
    intro t ht
    have hnames : t.columns.map ((·.name) ∘ fun c => (resolveColumn tables t.name c).value) =
        t.columns.map (·.name) := List.map_congr_left fun c hc => (hspec t ht c hc).1
    rw [hnames]
    exact (hfresh t ht).distinct

end Normalize

end Schemata
